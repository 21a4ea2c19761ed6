import TwinVoice.Reports.NumberAudits
import TwinVoice.Reports.Support

/-! # The template under its own audit

What the template takes from the data unchanged the audit finds there again.
The figures that it rounds to one decimal need not be within the tolerance of
a figure of the data, and the free texts may be longer than the limit. -/

namespace TwinVoice.Reports

open TwinVoice.Lib TwinVoice.Xai

/-! ## The templates as sentences -/

def MachineHealth.pieces (d : MachineHealth Double) : List Piece :=
  [.free "" d.asset.name "", .free "(" d.asset.code ")", .fixed "is at", .figure d.healthPct,
    .fixed "percent health with", .figure d.rul, .free "" d.rulUnit "",
    .fixed "of remaining life. OEE over the period was", .figure (some d.oeePct), .fixed "percent.",
    .count d.alarmCount "", .fixed "alarms were raised and", .count d.openWorkOrders "",
    .fixed "work orders are still open."]

def WeeklyMaintenance.pieces (d : WeeklyMaintenance Double) : List Piece :=
  [.count d.raised "", .fixed "work orders were raised on", .free "" d.scopeName "", .fixed "and", .count d.closed "",
    .fixed "were closed. MTBF was", .figure (some d.mtbfH), .fixed "hours and MTTR", .figure (some d.mttrH),
    .fixed "hours across", .count d.breakdowns "", .fixed "breakdowns."] ++
  match d.predictionAccuracyPct with
  | none => [.fixed "No closed order was scored against its prediction this period."]
  | some accuracy =>
    [.fixed "Prediction accuracy on", .count d.predictionsScored "", .fixed "scored orders was",
      .figure (some accuracy), .fixed "percent."]

def EnergyUse.pieces (d : EnergyUse Double) : List Piece :=
  [.free "" d.scopeName "", .fixed "consumed", .figure (some d.energyKwh), .fixed "kWh, costing", .figure (some d.cost),
    .free "" d.currency "", .fixed "and emitting", .figure (some d.co2Kg), .fixed "kg of CO2. Peak demand reached",
    .figure (some d.peakDemandKw), .fixed "kW and idle consumption was", .figure (some d.idleEnergySharePct),
    .fixed "percent of the total.", .count d.anomalyCount "", .fixed "consumption anomalies were detected."]

def BenchmarkFigures.pieces (d : BenchmarkFigures) : List Piece :=
  match d.run with
  | none => [.fixed "No completed benchmark run is on record yet."]
  | some run =>
    [.fixed "The most recent benchmark ran on", .joined "," run.datasets "", .fixed "with seed", .count run.seed ".",
      .count d.productionModels.length "", .fixed "models are in production."]

def Incident.pieces (iso : Instant → String) (d : Incident) : List Piece :=
  [.free "" d.name "", .fixed "failed at", .free "" (iso d.failureAt) ".", .fixed "In the", .count d.windowHours "",
    .fixed "hours either side there were", .count d.predictionCount "", .fixed "predictions,", .count d.alarmCount "",
    .fixed "alarms and", .count d.workOrderCount "", .fixed "work orders."] ++
  if d.recommendedActions = [] then [.fixed "No action had been recommended before the failure."]
  else [.fixed "The recommended action was:", .joined ";" d.recommendedActions "."]

def Figures.pieces (iso : Instant → String) : Figures → List Piece
  | machineHealth d => d.pieces
  | weeklyMaintenance d => d.pieces
  | energy d => d.pieces
  | benchmark d => d.pieces
  | incident d => d.pieces iso

section
variable (x : Texts) (repr : Data → String) (iso : Instant → String)

theorem fmt_orNull (y : Option Double) : fmt x repr (Data.orNull .float y) = .ok (Piece.figure y).text := by
  cases y <;> rfl

theorem strings_texts (texts : List String) : (Data.list (texts.map .text)).strings = .ok texts := by
  show (texts.map Data.text).mapM (m := Except Failure) _ = .ok texts
  induction texts with
  | nil => rfl
  | cons t texts ih =>
    rw [List.map_cons, List.mapM_cons]
    exact ih ▸ rfl

theorem toList_sentence_cons (p q : Piece) (pieces : List Piece) :
    (sentence (p :: q :: pieces)).toList = p.text.toList ++ ' ' :: (sentence (q :: pieces)).toList := by
  simp only [sentence, List.map_cons, String.intercalate_cons_cons, String.toList_append, String.reduceToList,
    List.append_assoc, List.cons_append, List.nil_append]

theorem toList_sentence_singleton (p : Piece) : (sentence [p]).toList = p.text.toList := by
  rw [sentence, List.map_singleton, String.intercalate_singleton]

theorem ok_sentence {text : String} {pieces : List Piece} (h : text.toList = (sentence pieces).toList) :
    (Except.ok text : Except Failure String) = .ok (sentence pieces) :=
  congrArg Except.ok (String.toList_injective h)

theorem machineHealthSummary_eq (d : MachineHealth Double) :
    machineHealthSummary x repr (d.data iso) = .ok (sentence d.pieces) := by
  have hhealth : figure x repr (d.data iso) "health_pct" = .ok (Piece.figure d.healthPct).text :=
    fmt_orNull x repr d.healthPct
  have hrul : figure x repr (d.data iso) "rul" = .ok (Piece.figure d.rul).text := fmt_orNull x repr d.rul
  unfold machineHealthSummary
  rw [hhealth, hrul]
  refine ok_sentence ?_
  simp only [MachineHealth.pieces, toList_sentence_cons, toList_sentence_singleton, Piece.text, String.toList_append,
    String.reduceToList, List.append_assoc, List.cons_append, List.nil_append, List.append_nil]
  rfl

theorem weeklyMaintenanceSummary_eq (d : WeeklyMaintenance Double) :
    weeklyMaintenanceSummary x repr (d.data iso) = .ok (sentence d.pieces) := by
  have haccuracy : (d.data iso).get "prediction_accuracy_pct" .null =
      .ok (.orNull .float d.predictionAccuracyPct) := rfl
  unfold weeklyMaintenanceSummary
  rw [haccuracy]
  cases haccuracy' : d.predictionAccuracyPct with
  | none =>
    refine ok_sentence ?_
    simp only [WeeklyMaintenance.pieces, haccuracy', toList_sentence_cons, toList_sentence_singleton, Piece.text,
      String.toList_append, String.reduceToList, List.append_assoc, List.cons_append, List.nil_append, List.append_nil]
    rfl
  | some accuracy =>
    refine ok_sentence ?_
    simp only [WeeklyMaintenance.pieces, haccuracy', toList_sentence_cons, toList_sentence_singleton, Piece.text,
      String.toList_append, String.reduceToList, List.append_assoc, List.cons_append, List.nil_append, List.append_nil]
    rfl

theorem energySummary_eq (d : EnergyUse Double) : energySummary x repr d.data = .ok (sentence d.pieces) := by
  unfold energySummary
  refine ok_sentence ?_
  simp only [EnergyUse.pieces, toList_sentence_cons, toList_sentence_singleton, Piece.text, String.toList_append,
    String.reduceToList, List.append_assoc, List.cons_append, List.nil_append, List.append_nil]
  rfl

theorem benchmarkSummary_eq (d : BenchmarkFigures) : benchmarkSummary repr (d.data iso) = .ok (sentence d.pieces) := by
  have hrun : (d.data iso).get "run" .null = .ok (.orNull (BenchmarkRunRow.data iso) d.run) := rfl
  unfold benchmarkSummary
  rw [hrun]
  cases hrun' : d.run with
  | none =>
    refine ok_sentence ?_
    simp only [BenchmarkFigures.pieces, hrun', toList_sentence_singleton, Piece.text]
  | some run =>
    have hjoined : join ", " (.list (run.datasets.map .text)) = .ok (String.intercalate ", " run.datasets) := by
      rw [join, strings_texts]
      rfl
    have hdatasets : (run.data iso).get "datasets" (.list []) = .ok (.list (run.datasets.map .text)) := rfl
    show (do return "The most recent benchmark ran on " ++ (← join ", " (← (run.data iso).get "datasets" (.list []))) ++
      " with seed " ++ (← shown repr (run.data iso) "seed" .null) ++ ". " ++
      (← shown repr (d.data iso) "model_count" (.int 0)) ++ " models are in production." : Except Failure String) = _
    simp only [hdatasets, bind, Except.bind, hjoined]
    refine ok_sentence ?_
    simp only [BenchmarkFigures.pieces, hrun', toList_sentence_cons, toList_sentence_singleton, Piece.text,
      String.toList_append, String.reduceToList, List.append_assoc, List.cons_append, List.nil_append, List.append_nil]
    rfl

theorem incidentSummary_eq (d : Incident) : incidentSummary repr (d.data iso) = .ok (sentence (d.pieces iso)) := by
  have hjoined : join "; " (.list (d.recommendedActions.map .text)) =
      .ok (String.intercalate "; " d.recommendedActions) := by
    rw [join, strings_texts]
    rfl
  have hactions : (d.data iso).get "recommended_actions" .null = .ok (.list (d.recommendedActions.map .text)) := rfl
  have hsome : (Data.list (d.recommendedActions.map .text)).truthy = true ↔ d.recommendedActions ≠ [] := by
    simp [Data.truthy]
  have hasset : (d.data iso).get "asset" (.dict []) =
      .ok (.dict [("code", .text d.code), ("name", .text d.name)]) := rfl
  unfold incidentSummary
  simp only [hasset, hactions, bind, Except.bind]
  by_cases hnone : d.recommendedActions = []
  · rw [if_neg fun h => hsome.mp h hnone]
    refine ok_sentence ?_
    simp only [Incident.pieces, if_pos hnone, toList_sentence_cons, toList_sentence_singleton, Piece.text,
      String.toList_append, String.reduceToList, List.append_assoc, List.cons_append, List.nil_append, List.append_nil]
    rfl
  · rw [if_pos (hsome.mpr hnone)]
    simp only [hjoined]
    refine ok_sentence ?_
    simp only [Incident.pieces, if_neg hnone, toList_sentence_cons, toList_sentence_singleton, Piece.text,
      String.toList_append, String.reduceToList, List.append_assoc, List.cons_append, List.nil_append, List.append_nil]
    rfl

theorem templateSummary_eq (d : Figures) :
    templateSummary x repr d.type (d.data iso) = .ok (sentence (d.pieces iso)) := by
  cases d with
  | machineHealth d => exact machineHealthSummary_eq x repr iso d
  | weeklyMaintenance d => exact weeklyMaintenanceSummary_eq x repr iso d
  | energy d => exact energySummary_eq x repr d
  | benchmark d => exact benchmarkSummary_eq repr iso d
  | incident d => exact incidentSummary_eq repr iso d

end

/-! ## The pieces of the templates -/

section
variable {x : Texts} {digit : Char → Nat}

theorem Decimals.backed_fixed (hx : Decimals x digit) {words : String} (h : words.toList.all Texts.templateChar = true)
    (data : Data) : (Piece.fixed words).Backed x data := by
  intro y hy
  rw [(hx.silent h).numbersIn] at hy
  cases hy

theorem framed_pieces (iso : Instant → String) (d : Figures) : ∀ p ∈ d.pieces iso, p.Framed := by
  cases d with
  | machineHealth d => simp [Figures.pieces, MachineHealth.pieces, Piece.Framed]
  | weeklyMaintenance d =>
    cases h : d.predictionAccuracyPct <;> simp [Figures.pieces, WeeklyMaintenance.pieces, h, Piece.Framed]
  | energy d => simp [Figures.pieces, EnergyUse.pieces, Piece.Framed]
  | benchmark d => cases h : d.run <;> simp [Figures.pieces, BenchmarkFigures.pieces, h, Piece.Framed]
  | incident d =>
    by_cases h : d.recommendedActions = [] <;> simp [Figures.pieces, Incident.pieces, h, Piece.Framed]

theorem MachineHealth.backed (hx : Decimals x digit) (iso : Instant → String) (d : MachineHealth Double) :
    ∀ p ∈ d.pieces, p.Backed x (d.data iso) := by
  have hname : Holds (d.data iso) (.text d.asset.name) := .lookup "asset" rfl (.lookup "name" rfl (.self _))
  have hcode : Holds (d.data iso) (.text d.asset.code) := .lookup "asset" rfl (.lookup "code" rfl (.self _))
  have hunit : Holds (d.data iso) (.text d.rulUnit) := .lookup "rul_unit" rfl (.self _)
  have halarms : Holds (d.data iso) (.int d.alarmCount) := .lookup "alarm_count" rfl (.self _)
  have horders : Holds (d.data iso) (.int d.openWorkOrders) := .lookup "open_work_orders" rfl (.self _)
  simp only [MachineHealth.pieces, List.forall_mem_cons]
  exact ⟨hname, hcode, hx.backed_fixed (by decide) _, trivial, hx.backed_fixed (by decide) _, trivial, hunit,
    hx.backed_fixed (by decide) _, trivial, hx.backed_fixed (by decide) _, halarms, hx.backed_fixed (by decide) _,
    horders, hx.backed_fixed (by decide) _, fun p hp => absurd hp List.not_mem_nil⟩

theorem WeeklyMaintenance.backed (hx : Decimals x digit) (iso : Instant → String) (d : WeeklyMaintenance Double) :
    ∀ p ∈ d.pieces, p.Backed x (d.data iso) := by
  have hraised : Holds (d.data iso) (.int d.raised) := .lookup "raised" rfl (.self _)
  have hscope : Holds (d.data iso) (.text d.scopeName) := .lookup "scope_name" rfl (.self _)
  have hclosed : Holds (d.data iso) (.int d.closed) := .lookup "closed" rfl (.self _)
  have hbreakdowns : Holds (d.data iso) (.int d.breakdowns) := .lookup "breakdowns" rfl (.self _)
  have hscored : Holds (d.data iso) (.int d.predictionsScored) := .lookup "predictions_scored" rfl (.self _)
  simp only [WeeklyMaintenance.pieces, List.forall_mem_append, List.forall_mem_cons]
  refine ⟨⟨hraised, hx.backed_fixed (by decide) _, hscope, hx.backed_fixed (by decide) _, hclosed,
    hx.backed_fixed (by decide) _, trivial, hx.backed_fixed (by decide) _, trivial, hx.backed_fixed (by decide) _,
    hbreakdowns, hx.backed_fixed (by decide) _, fun p hp => absurd hp List.not_mem_nil⟩, ?_⟩
  cases d.predictionAccuracyPct with
  | none =>
    intro p hp
    rw [List.mem_singleton.mp hp]
    exact hx.backed_fixed (by decide) _
  | some accuracy =>
    simp only [List.forall_mem_cons]
    exact ⟨hx.backed_fixed (by decide) _, hscored, hx.backed_fixed (by decide) _, trivial,
      hx.backed_fixed (by decide) _, fun p hp => absurd hp List.not_mem_nil⟩

/-- The digit of `CO2` is a counting word. -/
theorem Decimals.backed_co2 (hx : Decimals x digit) (data : Data) :
    (Piece.fixed "kg of CO2. Peak demand reached").Backed x data := by
  have hsplit : "kg of CO2. Peak demand reached" = "kg of CO" ++ (toString (2 : Int) ++ ". Peak demand reached") := by
    decide
  have hfront : Texts.Silent x "kg of CO" := hx.silent (by decide)
  have hback : Texts.Silent x ". Peak demand reached" := hx.silent (by decide)
  have hclosed : Closed x.isDigit ". Peak demand reached".toList := by
    have := hback.closed (by decide) ""
    rwa [String.append_empty] at this
  have htwo : allowedAlways.any (Floating.ofInt binary64 2).eq = true := by decide +kernel
  intro y hy
  rw [hsplit, hfront.numbersIn_append, Texts.numbersIn_append hclosed, hx.numbersIn_toString, hback.numbersIn] at hy
  rw [List.mem_singleton.mp hy]
  exact htwo

theorem EnergyUse.backed (hx : Decimals x digit) (d : EnergyUse Double) : ∀ p ∈ d.pieces, p.Backed x d.data := by
  have hscope : Holds d.data (.text d.scopeName) := .lookup "scope_name" rfl (.self _)
  have hcurrency : Holds d.data (.text d.currency) := .lookup "currency" rfl (.self _)
  have hcount : Holds d.data (.int d.anomalyCount) := .lookup "anomaly_count" rfl (.self _)
  simp only [EnergyUse.pieces, List.forall_mem_cons]
  exact ⟨hscope, hx.backed_fixed (by decide) _, trivial, hx.backed_fixed (by decide) _, trivial, hcurrency,
    hx.backed_fixed (by decide) _, trivial, hx.backed_co2 _, trivial, hx.backed_fixed (by decide) _, trivial,
    hx.backed_fixed (by decide) _, hcount, hx.backed_fixed (by decide) _, fun p hp => absurd hp List.not_mem_nil⟩

theorem BenchmarkFigures.backed (hx : Decimals x digit) (iso : Instant → String) (d : BenchmarkFigures) :
    ∀ p ∈ d.pieces, p.Backed x (d.data iso) := by
  have hcount : Holds (d.data iso) (.int d.productionModels.length) := .lookup "model_count" rfl (.self _)
  have hrun : ∀ run, d.run = some run → ∀ v, Holds (run.data iso) v → Holds (d.data iso) v := fun run h v hv =>
    .lookup "run" rfl (h ▸ hv)
  unfold BenchmarkFigures.pieces
  cases h : d.run with
  | none =>
    intro p hp
    rw [List.mem_singleton.mp hp]
    exact hx.backed_fixed (by decide) _
  | some run =>
    have hseed : Holds (d.data iso) (.int run.seed) := hrun run h _ (.lookup "seed" rfl (.self _))
    have hdatasets : ∀ item ∈ run.datasets, Holds (d.data iso) (.text item) := fun item hitem =>
      hrun run h _ (.lookup "datasets" rfl (.item (List.mem_map_of_mem hitem) (.self _)))
    simp only [List.forall_mem_cons]
    exact ⟨hx.backed_fixed (by decide) _, hdatasets, hx.backed_fixed (by decide) _, hseed, hcount,
      hx.backed_fixed (by decide) _, fun p hp => absurd hp List.not_mem_nil⟩

theorem Incident.backed (hx : Decimals x digit) (iso : Instant → String) (d : Incident) :
    ∀ p ∈ d.pieces iso, p.Backed x (d.data iso) := by
  have hname : Holds (d.data iso) (.text d.name) := .lookup "asset" rfl (.lookup "name" rfl (.self _))
  have hfailure : Holds (d.data iso) (.text (iso d.failureAt)) := .lookup "failure_at" rfl (.self _)
  have hwindow : Holds (d.data iso) (.int d.windowHours) := .lookup "window_hours" rfl (.self _)
  have hpredictions : Holds (d.data iso) (.int d.predictionCount) := .lookup "prediction_count" rfl (.self _)
  have halarms : Holds (d.data iso) (.int d.alarmCount) := .lookup "alarm_count" rfl (.self _)
  have horders : Holds (d.data iso) (.int d.workOrderCount) := .lookup "work_order_count" rfl (.self _)
  have hactions : ∀ item ∈ d.recommendedActions, Holds (d.data iso) (.text item) := fun item hitem =>
    .lookup "recommended_actions" rfl (.item (List.mem_map_of_mem hitem) (.self _))
  simp only [Incident.pieces, List.forall_mem_append, List.forall_mem_cons]
  refine ⟨⟨hname, hx.backed_fixed (by decide) _, hfailure, hx.backed_fixed (by decide) _, hwindow,
    hx.backed_fixed (by decide) _, hpredictions, hx.backed_fixed (by decide) _, halarms, hx.backed_fixed (by decide) _,
    horders, hx.backed_fixed (by decide) _, fun p hp => absurd hp List.not_mem_nil⟩, ?_⟩
  split
  · intro p hp
    rw [List.mem_singleton.mp hp]
    exact hx.backed_fixed (by decide) _
  · simp only [List.forall_mem_cons]
    exact ⟨hx.backed_fixed (by decide) _, hactions, fun p hp => absurd hp List.not_mem_nil⟩

theorem backed_pieces (hx : Decimals x digit) (iso : Instant → String) (d : Figures) :
    ∀ p ∈ d.pieces iso, p.Backed x (d.data iso) := by
  cases d with
  | machineHealth d => exact d.backed hx iso
  | weeklyMaintenance d => exact d.backed hx iso
  | energy d => exact d.backed hx
  | benchmark d => exact d.backed hx iso
  | incident d => exact d.backed hx iso

/-- The figures that the template rounds. -/
def Figures.rounded (iso : Instant → String) (d : Figures) : List Double := (d.pieces iso).flatMap Piece.rounded

/-- The texts that the template takes from the data. -/
def Figures.freeTexts (iso : Instant → String) (d : Figures) : List String := (d.pieces iso).flatMap Piece.freeTexts

/-- The words of the template, one for each number, and of the free texts with the punctuation at them. -/
def Figures.words (iso : Instant → String) (d : Figures) : Nat := ((d.pieces iso).map Piece.words).sum

theorem compose_none (repr : Data → String) (iso : Instant → String) (d : Figures) :
    compose x repr d.type (d.data iso) none =
      (audit x (sentence (d.pieces iso)) (d.data iso) false).map fun result => (sentence (d.pieces iso), result) := by
  unfold compose
  rw [templateSummary_eq]
  show (do return (sentence (d.pieces iso), ← audit x (sentence (d.pieces iso)) (d.data iso) false)) = _
  cases audit x (sentence (d.pieces iso)) (d.data iso) false <;> rfl

/-- The template of a report passes its own audit exactly if each figure that it rounds is, so rounded,
within the tolerance of a figure of the data, no free text has a number beyond the doubles, and the
words of the free texts leave it within the limit. -/
theorem template_passes_audit_iff (hx : Decimals x digit) (repr : Data → String) (iso : Instant → String)
    (d : Figures) :
    (∃ text result, compose x repr d.type (d.data iso) none = .ok (text, result) ∧ result.passed = true) ↔
      ∃ supported, supportedNumbers x (d.data iso) = .ok supported ∧
        (∀ y ∈ d.rounded iso, finite y = true → isSupported (y.roundTo 1) supported = true) ∧
        (∀ s ∈ d.freeTexts iso, ∀ y ∈ x.numbersIn s, finite y = false → isSupported y supported = true) ∧
        d.words iso ≤ wordLimit := by
  have hsummary : (∃ text result, compose x repr d.type (d.data iso) none = .ok (text, result) ∧ result.passed = true) ↔
      ∃ result, audit x (sentence (d.pieces iso)) (d.data iso) false = .ok result ∧ result.passed = true := by
    rw [compose_none]
    cases audit x (sentence (d.pieces iso)) (d.data iso) false with
    | error failure => exact iff_of_false (fun ⟨_, _, h, _⟩ => by cases h) (fun ⟨_, h, _⟩ => by cases h)
    | ok result =>
      refine ⟨fun ⟨text, r, h, hpassed⟩ => ⟨r, ?_, hpassed⟩,
        fun ⟨r, h, hpassed⟩ => ⟨sentence (d.pieces iso), r, ?_, hpassed⟩⟩
      · rw [(Prod.mk.inj (Except.ok.inj h)).2]
      · rw [Except.ok.inj h]
        rfl
  have haccepted : ∀ supported, supportedNumbers x (d.data iso) = .ok supported →
      ((∀ y ∈ x.numbersIn (sentence (d.pieces iso)), isSupported y supported = true) ↔
        (∀ y ∈ d.rounded iso, finite y = true → isSupported (y.roundTo 1) supported = true) ∧
        ∀ s ∈ d.freeTexts iso, ∀ y ∈ x.numbersIn s, finite y = false → isSupported y supported = true) := by
    intro supported hdata
    have hpiece := fun p hp => (backed_pieces hx iso d p hp).supported_iff hdata
    rw [hx.numbersIn_sentence (framed_pieces iso d)]
    refine ⟨fun h => ⟨fun y hy => ?_, fun s hs => ?_⟩, fun h y hy => ?_⟩
    · obtain ⟨p, hp, hy⟩ := List.mem_flatMap.mp hy
      exact ((hpiece p hp).mp fun z hz => h z (List.mem_flatMap.mpr ⟨p, hp, hz⟩)).rounded y hy
    · obtain ⟨p, hp, hs⟩ := List.mem_flatMap.mp hs
      exact ((hpiece p hp).mp fun z hz => h z (List.mem_flatMap.mpr ⟨p, hp, hz⟩)).freeTexts s hs
    · obtain ⟨p, hp, hy⟩ := List.mem_flatMap.mp hy
      exact (hpiece p hp).mpr ⟨fun z hz => h.1 z (List.mem_flatMap.mpr ⟨p, hp, hz⟩),
        fun s hs => h.2 s (List.mem_flatMap.mpr ⟨p, hp, hs⟩)⟩ y hy
  have hwords : wordCount (sentence (d.pieces iso)) = d.words iso := wordCount_sentence (framed_pieces iso d)
  rw [hsummary]
  refine ⟨fun ⟨result, haudit, hpassed⟩ => ?_, fun ⟨supported, hdata, hrounded, hfree, hlimit⟩ => ?_⟩
  · obtain ⟨supported, hdata⟩ := supported_of_audit haudit
    obtain ⟨hnumbers, hlimit⟩ := (passed_iff hdata _ haudit).mp hpassed
    obtain ⟨hrounded, hfree⟩ := (haccepted supported hdata).mp hnumbers
    exact ⟨supported, hdata, hrounded, hfree, hwords ▸ hlimit⟩
  · obtain ⟨result, haudit⟩ := audit_ok hdata (sentence (d.pieces iso)) false
    exact ⟨result, haudit, (passed_iff hdata _ haudit).mpr
      ⟨(haccepted supported hdata).mpr ⟨hrounded, hfree⟩, hwords.symm ▸ hlimit⟩⟩

end

theorem decimalTexts_decimals : Decimals decimalTexts digitOf :=
  { decimalTexts_reads with
    ascii := fun _ _ => rfl
    digit := fun _ _ => rfl }

/-- A week with one order, raised and closed, and one breakdown that took some hours. -/
def weekOf (mttrH : ℚ) : WeeklyMaintenance Double where
  scopeName := "Line 1"
  raised := 1
  closed := 1
  byStatus := []
  byType := []
  predictionsScored := 0
  predictionsCorrect := 0
  predictionAccuracyPct := none
  mtbfH := Floating.ofRat _ 8
  mttrH := Floating.ofRat _ mttrH
  breakdowns := 1
  orders := []

/-- A repair of 1.25 hours stands as 1.2 in the text, which is not within the tolerance of it. -/
theorem quarter_hour_rounded_away :
    (compose decimalTexts (fun _ => "") .weeklyMaintenance ((weekOf (5 / 4)).data fun _ => "") none).map Prod.snd =
      .ok ⟨false, false, 33, [Floating.ofRat _ (6 / 5)], some "numbers not present in the report data"⟩ := by
  have hdata : supportedNumbers decimalTexts ((weekOf (5 / 4)).data fun _ => "") =
      .ok (figures [1, 1, 1, 0, 0, 8] ++ [Floating.ofRat _ (5 / 4), Floating.ofRat _ 1]) := by
    decide +kernel
  have hpieces := framed_pieces (fun _ => "") (.weeklyMaintenance (weekOf (5 / 4)))
  have hnumbers : numbersIn decimalTexts (sentence (weekOf (5 / 4)).pieces) =
      figures [1, 1, 1, 8] ++ [Floating.ofRat _ (6 / 5), Floating.ofRat _ 1] := by
    have hread : (weekOf (5 / 4)).pieces.flatMap (Piece.numbers decimalTexts) =
        figures [1, 1, 1, 8] ++ [Floating.ofRat _ (6 / 5), Floating.ofRat _ 1] := by
      decide +kernel
    exact (decimalTexts_decimals.numbersIn_sentence hpieces).trans hread
  have hwords : (fields (sentence (weekOf (5 / 4)).pieces)).length = 33 := by
    have hcount : ((weekOf (5 / 4)).pieces.map Piece.words).sum = 33 := by decide +kernel
    exact (wordCount_sentence hpieces).trans hcount
  have haudit : audit decimalTexts (sentence (weekOf (5 / 4)).pieces) ((weekOf (5 / 4)).data fun _ => "") false =
      .ok ⟨false, false, 33, [Floating.ofRat _ (6 / 5)], some "numbers not present in the report data"⟩ := by
    unfold audit
    rw [hdata, hnumbers, hwords]
    decide +kernel
  have hcompose := @compose_none decimalTexts (fun _ => "") (fun _ => "") (.weeklyMaintenance (weekOf (5 / 4)))
  exact (congrArg (Except.map Prod.snd) (hcompose.trans (congrArg _ haudit))).trans rfl

/-- A repair of two hours stands as 2 in the text. -/
theorem two_hours_kept :
    ∃ text result, compose decimalTexts (fun _ => "") .weeklyMaintenance ((weekOf 2).data fun _ => "") none =
      .ok (text, result) ∧ result.passed = true := by
  have hdata : supportedNumbers decimalTexts ((weekOf 2).data fun _ => "") = .ok (figures [1, 1, 1, 0, 0, 8, 2, 1]) ∧
      (∀ y ∈ (Figures.weeklyMaintenance (weekOf 2)).rounded fun _ => "", finite y = true →
        isSupported (y.roundTo 1) (figures [1, 1, 1, 0, 0, 8, 2, 1]) = true) ∧
      (∀ s ∈ (Figures.weeklyMaintenance (weekOf 2)).freeTexts fun _ => "", ∀ y ∈ decimalTexts.numbersIn s,
        finite y = false → isSupported y (figures [1, 1, 1, 0, 0, 8, 2, 1]) = true) ∧
      ((Figures.weeklyMaintenance (weekOf 2)).words fun _ => "") ≤ wordLimit := by
    decide +kernel
  exact (template_passes_audit_iff decimalTexts_decimals (fun _ => "") (fun _ => "")
    (.weeklyMaintenance (weekOf 2))).mpr ⟨_, hdata⟩

end TwinVoice.Reports
