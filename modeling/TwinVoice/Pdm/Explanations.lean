import TwinVoice.Lib.Transition
import TwinVoice.Pdm.Scoring

/-! # Explanations of server predictions

A prediction does not keep the vector it was computed from. The explanation
task rebuilds the vector from the telemetry that is stored by then, which may
have got readings whose time lies in the window that was scored. -/

namespace TwinVoice.Pdm

open TwinVoice.Lib Transition Filling
open TwinVoice.Sim (Double)

/-- A row of `predictions`, with the model that it names; `scored` is what the row does not
hold, the vector that was scored. -/
structure Prediction where
  assetId : Uuid
  windowEnd : Instant
  loaded : LoadedModel
  scored : List Double

/-- The stored readings of each asset, and the predictions. -/
structure Records where
  telemetry : Uuid → List Reading
  predictions : List Prediction

/-- `_window_end`. -/
def gridEnd (now : Instant) : Instant :=
  let epoch := now / seconds 1
  (epoch - epoch % 10) * seconds 1

section
variable (root : Rat → Rat)

/-- The vector that is rebuilt from the telemetry for the window ending at `end`. -/
def rebuilt (telemetry : List Reading) (loaded : LoadedModel) («end» : Instant) : Option (List Double) := do
  let window ← telemetryWindow telemetry loaded.spec «end»
  (featureVector root loaded window).map Prod.fst

namespace Records

inductive Event
  | insert (assetId : Uuid) (r : Reading)
  | infer (assetId : Uuid) (loaded : LoadedModel) (now : Instant)

/-- Readings are stored, and an asset is scored unless its window is too sparse. -/
def step (s : Records) : Event → Records
  | .insert assetId r => { s with telemetry := Function.update s.telemetry assetId (s.telemetry assetId ++ [r]) }
  | .infer assetId loaded now =>
    match rebuilt root (s.telemetry assetId) loaded (gridEnd now) with
    | some x => { s with predictions := s.predictions ++ [⟨assetId, gridEnd now, loaded, x⟩] }
    | none => s

/-- `_feature_vector`: what an explanation of the prediction would attribute now. -/
def attributed (s : Records) (p : Prediction) : Option (List Double) :=
  rebuilt root (s.telemetry p.assetId) p.loaded p.windowEnd

/-- Explanations describe the vectors that were scored. -/
def Faithful (s : Records) : Prop := ∀ p ∈ s.predictions, s.attributed root p = some p.scored

end Records

end

/-- The reading belongs to the window of the prediction. -/
def Prediction.Covers (p : Prediction) (r : Reading) : Prop :=
  r.metric ∈ p.loaded.spec.sensorCols ∧ windowStart p.loaded.spec p.windowEnd ≤ r.time ∧ r.time < p.windowEnd

/-- The reading is what the bucket that it belongs to has on average already. -/
def Prediction.Averages (p : Prediction) (telemetry : List Reading) (r : Reading) : Prop :=
  r.value.isFinite = true ∧ bucketValue telemetry p.loaded.spec p.windowEnd (timeBucket r.time) r.metric = some r.value

/-- No reading that arrives changes a window that has been scored. -/
def Records.Punctual (s : Records) : Records.Event → Prop
  | .insert assetId r => ∀ p ∈ s.predictions, p.assetId = assetId → p.Covers r → p.Averages (s.telemetry assetId) r
  | .infer _ _ _ => True

instance (p : Prediction) (r : Reading) : Decidable (p.Covers r) := inferInstanceAs (Decidable (_ ∧ _ ∧ _))

instance (p : Prediction) (telemetry : List Reading) (r : Reading) : Decidable (p.Averages telemetry r) :=
  inferInstanceAs (Decidable (_ ∧ _))

instance (s : Records) (e : Records.Event) : Decidable (s.Punctual e) :=
  match e with
  | .insert _ _ => List.decidableBAll _ _
  | .infer _ _ _ => .isTrue trivial

/-! ## What an insert leaves as it is -/

theorem average_append {values : List Double} {x : Double} (hx : x.Finite) (h : average values = some x) :
    average (values ++ [x]) = some x := by
  obtain ⟨q, rfl⟩ := hx
  unfold average at h
  split at h
  · cases h
  · rename_i hne
    dsimp only at h
    split at h
    · cases h
    · have hmean : mean values = .finite q := Option.some.inj h
      obtain ⟨qs, rfl⟩ := exists_rat ((finite_mean_iff hne).mp ⟨q, hmean⟩)
      have hqs : qs ≠ [] := fun hnil => hne (by rw [hnil]; rfl)
      have hlength : (qs.length : Rat) ≠ 0 := Nat.cast_ne_zero.mpr fun hzero => hqs (List.length_eq_zero_iff.mp hzero)
      rw [mean_finite hqs] at hmean
      have hsum : qs.sum = q * qs.length := (div_eq_iff hlength).mp (Double.finite.inj hmean)
      have hall : mean (qs.map .finite ++ [.finite q]) = .finite q := by
        have hmap : qs.map Double.finite ++ [.finite q] = (qs ++ [q]).map .finite := by simp
        have hcount : ((qs ++ [q]).length : Rat) = qs.length + 1 := by simp
        have hpos : (qs.length : Rat) + 1 ≠ 0 := Nat.cast_add_one_ne_zero qs.length
        rw [hmap, mean_finite (by simp), hcount, List.sum_append, List.sum_singleton, hsum]
        refine congrArg Double.finite ?_
        rw [div_eq_iff hpos, mul_add_one]
      unfold average
      rw [if_neg (by simp)]
      show (if mean (qs.map .finite ++ [.finite q]) = .nan then none else some (mean (qs.map .finite ++ [.finite q]))) = _
      rw [hall, if_neg (by simp)]

/-- A reading that does not belong to the window, or is the average of its bucket, changes no bucket. -/
theorem bucketValue_insert {p : Prediction} {telemetry : List Reading} {r : Reading}
    (h : p.Covers r → p.Averages telemetry r) (bucket : Instant) {name : String} (hname : name ∈ p.loaded.spec.sensorCols) :
    bucketValue (telemetry ++ [r]) p.loaded.spec p.windowEnd bucket name =
      bucketValue telemetry p.loaded.spec p.windowEnd bucket name := by
  unfold bucketValue
  rw [List.filter_append]
  by_cases hin : r.metric = name ∧ windowStart p.loaded.spec p.windowEnd ≤ r.time ∧ r.time < p.windowEnd ∧
      timeBucket r.time = bucket
  · obtain ⟨rfl, hstart, hend, rfl⟩ := hin
    obtain ⟨hfinite, haverage⟩ := h ⟨hname, hstart, hend⟩
    unfold bucketValue at haverage
    rw [List.filter_singleton, decide_eq_true (show r.metric = r.metric ∧ windowStart p.loaded.spec p.windowEnd ≤ r.time ∧
      r.time < p.windowEnd ∧ timeBucket r.time = timeBucket r.time from ⟨rfl, hstart, hend, rfl⟩), List.map_append, haverage]
    exact average_append (Double.isFinite_iff.mp hfinite) haverage
  · rw [List.filter_singleton, decide_eq_false hin]
    simp

theorem featureVector_congr (root : Rat → Rat) {loaded : LoadedModel} {window window' : ScoringWindow}
    (hlength : window.frame.length = window'.frame.length)
    (hcolumn : ∀ name ∈ loaded.spec.sensorCols, (window.frame.map fun row => row name) = window'.frame.map fun row => row name)
    (hmissing : window.missing = window'.missing) : featureVector root loaded window = featureVector root loaded window' := by
  unfold featureVector
  dsimp only
  cases hframe : window.frame with
  | nil =>
    rw [hframe] at hlength
    rw [List.length_eq_zero_iff.mp hlength.symm, hmissing]
  | cons row rows =>
    have hne : window.frame ≠ [] := by
      rw [hframe]
      exact List.cons_ne_nil row rows
    have hne' : window'.frame ≠ [] := by
      intro hnil
      rw [hnil] at hlength
      exact hne (List.length_eq_zero_iff.mp hlength)
    rw [← hframe, buildFeatures_whole root loaded.spec hne, buildFeatures_whole root loaded.spec hne',
      features_congr root hcolumn, hmissing]

/-- The rebuilt vector depends on the buckets of the trained sensors only. -/
theorem rebuilt_congr (root : Rat → Rat) {telemetry telemetry' : List Reading} {loaded : LoadedModel} {«end» : Instant}
    (h : ∀ name ∈ loaded.spec.sensorCols, wide telemetry loaded.spec «end» name = wide telemetry' loaded.spec «end» name) :
    rebuilt root telemetry loaded «end» = rebuilt root telemetry' loaded «end» := by
  have hpopulated : populated telemetry loaded.spec «end» = populated telemetry' loaded.spec «end» := by
    refine List.countP_congr ?_
    intro i _
    rw [List.any_eq_true, List.any_eq_true]
    refine exists_congr fun name => and_congr_right fun hname => ?_
    rw [h name hname]
  have hmissing : (loaded.spec.sensorCols.filter fun name => (wide telemetry loaded.spec «end» name).all Option.isNone) =
      loaded.spec.sensorCols.filter fun name => (wide telemetry' loaded.spec «end» name).all Option.isNone := by
    refine List.filter_congr ?_
    intro name hname
    rw [h name hname]
  unfold rebuilt telemetryWindow
  dsimp only
  rw [hpopulated]
  split
  · rfl
  · refine congrArg (Option.map Prod.fst) (featureVector_congr root ?_ ?_ ?_)
    · simp
    · intro name hname
      dsimp only
      rw [column_frame, column_frame, filled, filled, h name hname]
    · exact hmissing

theorem rebuilt_insert (root : Rat → Rat) {p : Prediction} {telemetry : List Reading} {r : Reading}
    (h : p.Covers r → p.Averages telemetry r) :
    rebuilt root (telemetry ++ [r]) p.loaded p.windowEnd = rebuilt root telemetry p.loaded p.windowEnd := by
  refine rebuilt_congr root ?_
  intro name hname
  unfold wide
  refine List.map_congr_left ?_
  intro i _
  exact bucketValue_insert h _ hname

namespace Records

/-- A punctual step leaves the explanations faithful. -/
theorem Faithful.step {root : Rat → Rat} {s : Records} (h : s.Faithful root) {e : Event} (hpunctual : s.Punctual e) :
    (s.step root e).Faithful root := by
  cases e with
  | insert assetId r =>
    intro p hp
    have hkept := h p hp
    unfold attributed at hkept ⊢
    show rebuilt root (Function.update s.telemetry assetId (s.telemetry assetId ++ [r]) p.assetId) p.loaded p.windowEnd = _
    by_cases hasset : p.assetId = assetId
    · subst hasset
      rw [Function.update_self, rebuilt_insert root (hpunctual p hp rfl)]
      exact hkept
    · rwa [Function.update_of_ne hasset]
  | infer assetId loaded now =>
    unfold Records.step
    dsimp only
    split
    · rename_i x hx
      intro p hp
      rcases List.mem_append.mp hp with hp | hp
      · exact h p hp
      · rw [List.mem_singleton.mp hp]
        exact hx
    · exact h

/-- In every run whose inserts are punctual, every explanation describes the vector that was
scored, whenever it is made. -/
theorem explained_as_scored (root : Rat → Rat) (telemetry : Uuid → List Reading) {es : List Event} {s : Records}
    (h : Run (Guarded (Fires fun s e => some (step root s e)) Punctual) ⟨telemetry, []⟩ es s) : s.Faithful root := by
  refine h.guarded (fun p hp => by cases hp) ?_
  intro t e u ht hpunctual hstep
  cases hstep
  exact ht.step hpunctual

/-- The mean of one sensor over half a minute. -/
def meanModel : LoadedModel := ⟨⟨3, 1, ["mean"], ["vib"]⟩, ["vib_mean"], fun _ => .finite 0⟩

/-- Three readings that are in time. -/
def halfMinute : List Event :=
  [.insert 1 ⟨seconds 0, "vib", .finite 1⟩, .insert 1 ⟨seconds 10, "vib", .finite 2⟩, .insert 1 ⟨seconds 20, "vib", .finite 3⟩]

/-- The window is scored, and then a reading comes that repeats one of it, and one after it. -/
def inTime : List Event :=
  halfMinute ++ [.infer 1 meanModel (seconds 31), .insert 1 ⟨seconds 12, "vib", .finite 2⟩,
    .insert 1 ⟨seconds 30, "vib", .finite 9⟩]

theorem explained_as_scored_in_time :
    ∃ s, replay (guarded (fun s e => some (step id s e)) Punctual) ⟨fun _ => [], []⟩ inTime = some s ∧ s.Faithful id := by
  have hsome : (replay (guarded (fun s e => some (step id s e)) Punctual) ⟨fun _ => [], []⟩ inTime).isSome = true := by
    decide +kernel
  obtain ⟨s, hs⟩ := Option.isSome_iff_exists.mp hsome
  exact ⟨s, hs, explained_as_scored id (fun _ => []) (run_of_guarded hs)⟩

/-- The window is scored, and then a reading of it comes. -/
def tooLate : List Event := halfMinute ++ [.infer 1 meanModel (seconds 31), .insert 1 ⟨seconds 12, "vib", .finite 8⟩]

theorem late_reading_is_explained : ¬ (tooLate.foldl (step id) ⟨fun _ => [], []⟩).Faithful id := by
  intro h
  have hall : ((tooLate.foldl (step id) ⟨fun _ => [], []⟩).predictions.all fun p =>
      (tooLate.foldl (step id) ⟨fun _ => [], []⟩).attributed id p = some p.scored) = false := by
    decide +kernel
  rw [List.all_eq_true.mpr fun p hp => decide_eq_true (h p hp)] at hall
  cases hall

end Records

end TwinVoice.Pdm
