import Mathlib.Data.List.DropRight
import Mathlib.Analysis.Real.Sqrt
import TwinVoice.Basic
import TwinVoice.Lib.Dict
import TwinVoice.Lib.LeastSquares

/-! # The alarm engine

`AlarmEngine` judges one reading after another. A threshold rule reports the
limit that the reading has passed. An adaptive rule takes the distance from
the mean of a rolling window, with the reading in it, on either side, and
reports the upper limit of its band whichever side it was. -/

namespace TwinVoice.Ingest.AlarmEngine

open TwinVoice.Lib Grouping LeastSquares

inductive AlarmRuleKind
  | threshold | adaptive | mlAnomaly | energyIntensity
  deriving DecidableEq

/-- A value in `params`: whatever JSON holds. -/
inductive Param (K : Type)
  | null
  | flag (b : Bool)
  | number (x : K)
  | text (s : String)
  | nested

structure AlarmRule (K : Type) where
  id : Uuid
  kind : AlarmRuleKind
  severity : String
  params : Dict String (Param K)

/-- What a rule is evaluated on. -/
structure Reading (K : Type) where
  sensorId : Uuid
  assetId : Uuid
  value : K
  metricName : String
  time : Instant

/-- The dictionary that an evaluation returns. -/
structure AlarmData (K : Type) where
  ruleId : Uuid
  assetId : Uuid
  sensorId : Uuid
  severity : String
  title : String
  message : String
  value : K
  threshold : K

/-- How numbers are shown: to so many decimals, and a parameter as it is. -/
structure Texts (K : Type) where
  fixed : Nat → K → String
  str : Param K → String

/-- An entry of a rolling window. -/
structure Sample (K : Type) where
  v : K
  t : Instant

/-- The lists in Valkey, by rule. -/
abbrev Windows (K : Type) := Dict Uuid (List (Sample K))

inductive Raised
  | typeError
  deriving DecidableEq

/-! ## Parameters -/

section
variable {K : Type} [Field K]

/-- A parameter as arithmetic takes it; `None`, a text and a container it refuses. -/
def Param.asNumber : Param K → Option K
  | .flag b => some (if b then 1 else 0)
  | .number x => some x
  | _ => none

/-- `params.get("sigma", 3.0)`, where it is a number. -/
def sigmaThreshold (params : Dict String (Param K)) : Option K :=
  ((params.get? "sigma").getD (.number 3.0)).asNumber

end

def windowSamples : Dict String Nat :=
  [("5m", 300), ("15m", 900), ("30m", 1800), ("1h", 3600), ("6h", 21600), ("24h", 86400)]

def defaultWindow : String := "1h"

/-- `WINDOW_SAMPLES[DEFAULT_WINDOW]`. -/
def defaultSamples : Nat := (windowSamples.get? defaultWindow).getD 0

def minSamples : Nat := 30

section
variable {K : Type}

/-- The size of the window that a rule asks for; a container cannot be looked up. -/
def samples (params : Dict String (Param K)) : Except Raised Nat :=
  match (params.get? "window").getD (.text defaultWindow) with
  | .text window => .ok ((windowSamples.get? window).getD defaultSamples)
  | .nested => .error .typeError
  | _ => .ok defaultSamples

/-- `rpush`, `ltrim` to the last `n` and `lrange`. -/
def pushed (s : Windows K) (ruleId : Uuid) (n : Nat) (r : Reading K) : List (Sample K) :=
  ((s.get? ruleId).getD [] ++ [Sample.mk r.value r.time]).rtake n

end

/-! ## Evaluation -/

section
variable {K : Type} [Field K] [LinearOrder K]

/-- `limit is not None and value > limit`, or `<`: the limit if it is passed. -/
def passed (beyond : K → K → Bool) (limit : Option (Param K)) (value : K) : Except Raised (Option (Param K × K)) :=
  match limit with
  | none | some .null => .ok none
  | some p =>
    match p.asNumber with
    | none => .error .typeError
    | some x => .ok (if beyond value x then some (p, x) else none)

variable (texts : Texts K)

/-- The alarm of a threshold rule. -/
def thresholdAlarm (rule : AlarmRule K) (r : Reading K) (direction : String) (threshold : Param K × K) : AlarmData K where
  ruleId := rule.id
  assetId := r.assetId
  sensorId := r.sensorId
  severity := rule.severity
  title := r.metricName ++ " " ++ direction ++ " threshold"
  message := r.metricName ++ " = " ++ texts.fixed 2 r.value ++ " (" ++ direction ++ " " ++ texts.str threshold.1 ++ ")"
  value := r.value
  threshold := threshold.2

def evaluateThreshold (rule : AlarmRule K) (r : Reading K) : Except Raised (Option (AlarmData K)) := do
  match ← passed (fun value high => high < value) (rule.params.get? "high") r.value with
  | some high => return some (thresholdAlarm texts rule r "above" high)
  | none =>
    match ← passed (fun value low => value < low) (rule.params.get? "low") r.value with
    | some low => return some (thresholdAlarm texts rule r "below" low)
    | none => return none

/-- The alarm of an adaptive rule. -/
def adaptiveAlarm (rule : AlarmRule K) (r : Reading K) (mean std zScore sigmaThreshold : K) : AlarmData K where
  ruleId := rule.id
  assetId := r.assetId
  sensorId := r.sensorId
  severity := rule.severity
  title := r.metricName ++ " adaptive alert (" ++ texts.fixed 1 zScore ++ " sigma)"
  message := r.metricName ++ " = " ++ texts.fixed 2 r.value ++ " (mean=" ++ texts.fixed 2 mean ++ ", std=" ++
    texts.fixed 2 std ++ ", z=" ++ texts.fixed 1 zScore ++ ")"
  value := r.value
  threshold := mean + sigmaThreshold * std

variable (sqrt : K → K)

/-- A signal of a smaller deviation counts as constant. -/
def leastStd : K := 1e-10

def std (values : List K) : K := sqrt (squares values (mean values) / values.length)

/-- `evaluate_adaptive`, once it has read the window. -/
def judge (rule : AlarmRule K) (r : Reading K) (values : List K) : Except Raised (Option (AlarmData K)) :=
  if values.length < minSamples then .ok none
  else
    let mean := mean values
    let std := std sqrt values
    if std < leastStd then .ok none
    else
      let zScore := |r.value - mean| / std
      match sigmaThreshold rule.params with
      | none => .error .typeError
      | some sigmaThreshold =>
        if zScore ≤ sigmaThreshold then .ok none
        else .ok (some (adaptiveAlarm texts rule r mean std zScore sigmaThreshold))

def evaluateAdaptive (s : Windows K) (rule : AlarmRule K) (r : Reading K) :
    Except Raised (Option (AlarmData K)) × Windows K :=
  match samples rule.params with
  | .error e => (.error e, s)
  | .ok n =>
    let window := pushed s rule.id n r
    (judge texts sqrt rule r (window.map Sample.v), s.set rule.id window)

/-- What the consumer asks of the engine for a rule. -/
def evaluate (s : Windows K) (rule : AlarmRule K) (r : Reading K) : Except Raised (Option (AlarmData K)) × Windows K :=
  match rule.kind with
  | .threshold => (evaluateThreshold texts rule r, s)
  | .adaptive => evaluateAdaptive texts sqrt s rule r
  | _ => (.ok none, s)

end

/-! ## Streams of readings -/

inductive Event (K : Type)
  | reading (rule : AlarmRule K) (r : Reading K)
  /-- The list of a rule has reached its time to live. -/
  | expired (ruleId : Uuid)

/-- An evaluation, and the windows that it meets. -/
structure Stage (K : Type) where
  windows : Windows K
  rule : AlarmRule K
  reading : Reading K

section
variable {K : Type} [Field K] [LinearOrder K] (texts : Texts K) (sqrt : K → K)

def step (s : Windows K) : Event K → Windows K
  | .reading rule r => (evaluate texts sqrt s rule r).2
  | .expired ruleId => s.pop ruleId

def run (s : Windows K) (stream : List (Event K)) : Windows K := stream.foldl (step texts sqrt) s

/-- The evaluations of a stream, one after another. -/
def stages (s : Windows K) : List (Event K) → List (Stage K)
  | [] => []
  | .reading rule r :: es => ⟨s, rule, r⟩ :: stages (step texts sqrt s (.reading rule r)) es
  | .expired ruleId :: es => stages (step texts sqrt s (.expired ruleId)) es

def Stage.outcome (g : Stage K) : Except Raised (Option (AlarmData K)) :=
  (evaluate texts sqrt g.windows g.rule g.reading).1

end

/-! ## Evidence -/

/-- The limits that a rule sets a reading. -/
structure Band (K : Type) where
  low : Option K
  high : Option K

/-- The value lies beyond the limit that the alarm carries. -/
def Band.Violated {K : Type} [LT K] (band : Band K) (alarm : AlarmData K) : Prop :=
  (band.high = some alarm.threshold ∧ alarm.threshold < alarm.value) ∨
    (band.low = some alarm.threshold ∧ alarm.value < alarm.threshold)

section
variable {K : Type} [Field K] [LinearOrder K] (sqrt : K → K)

/-- The values that an adaptive rule judges the reading by. -/
def Stage.values (g : Stage K) : List K :=
  match samples g.rule.params with
  | .error _ => []
  | .ok n => (pushed g.windows g.rule.id n g.reading).map Sample.v

def Stage.band (g : Stage K) : Band K :=
  match g.rule.kind with
  | .threshold => ⟨(g.rule.params.get? "low").bind Param.asNumber, (g.rule.params.get? "high").bind Param.asNumber⟩
  | .adaptive =>
    let spread := (sigmaThreshold g.rule.params).map (· * std sqrt g.values)
    ⟨spread.map (mean g.values - ·), spread.map (mean g.values + ·)⟩
  | _ => ⟨none, none⟩

/-- An adaptive rule with a window takes for an outlier what does not lie above its band. -/
structure Stage.Undershot (g : Stage K) : Prop where
  adaptive : g.rule.kind = .adaptive
  enough : minSamples ≤ g.values.length
  varies : leastStd ≤ std sqrt g.values
  below : ∃ sigma ∈ sigmaThreshold g.rule.params, sigma ≠ 0 ∧
    sigma * std sqrt g.values < |g.reading.value - mean g.values| ∧
      g.reading.value ≤ mean g.values + sigma * std sqrt g.values

end

/-! ## One evaluation -/

section
variable {K : Type} [Field K] [LinearOrder K] {texts : Texts K}

omit [LinearOrder K] in
theorem of_passed {beyond : K → K → Bool} {limit : Option (Param K)} {value : K} {p : Param K × K}
    (h : passed beyond limit value = .ok (some p)) : limit.bind Param.asNumber = some p.2 ∧ beyond value p.2 := by
  unfold passed at h
  split at h
  · cases h
  · cases h
  · rename_i param _
    split at h
    · cases h
    · rename_i x hx
      split at h
      · cases h
        exact ⟨hx, ‹_›⟩
      · cases h

theorem evaluateThreshold_violated {rule : AlarmRule K} {r : Reading K} {alarm : AlarmData K}
    (h : evaluateThreshold texts rule r = .ok (some alarm)) :
    Band.Violated ⟨(rule.params.get? "low").bind Param.asNumber, (rule.params.get? "high").bind Param.asNumber⟩ alarm := by
  unfold evaluateThreshold at h
  cases hhigh : passed (fun value high => high < value) (rule.params.get? "high") r.value with
  | error e =>
    rw [hhigh] at h
    cases h
  | ok high =>
    rw [hhigh] at h
    cases high with
    | some high =>
      cases h
      obtain ⟨hlimit, hbeyond⟩ := of_passed hhigh
      exact .inl ⟨hlimit, of_decide_eq_true hbeyond⟩
    | none =>
      cases hlow : passed (fun value low => value < low) (rule.params.get? "low") r.value with
      | error e =>
        simp only [hlow] at h
        cases h
      | ok low =>
        simp only [hlow] at h
        cases low with
        | some low =>
          cases h
          obtain ⟨hlimit, hbeyond⟩ := of_passed hlow
          exact .inr ⟨hlimit, of_decide_eq_true hbeyond⟩
        | none => cases h

end

section
variable {K : Type} [Field K] [LinearOrder K] [IsStrictOrderedRing K] {texts : Texts K} {sqrt : K → K}

theorem leastStd_pos : 0 < (leastStd : K) := by
  unfold leastStd
  norm_num

theorem judge_eq_some {rule : AlarmRule K} {r : Reading K} {values : List K} {alarm : AlarmData K} :
    judge texts sqrt rule r values = .ok (some alarm) ↔
      minSamples ≤ values.length ∧ leastStd ≤ std sqrt values ∧ ∃ sigma ∈ sigmaThreshold rule.params,
        sigma * std sqrt values < |r.value - mean values| ∧
          alarm = adaptiveAlarm texts rule r (mean values) (std sqrt values) (|r.value - mean values| / std sqrt values)
            sigma := by
  unfold judge
  by_cases hfew : values.length < minSamples
  · rw [if_pos hfew]
    simp [Nat.not_le.mpr hfew]
  · rw [if_neg hfew]
    by_cases hflat : std sqrt values < leastStd
    · rw [if_pos hflat]
      simp [not_le.mpr hflat]
    · have hpos : 0 < std sqrt values := lt_of_lt_of_le leastStd_pos (not_lt.mp hflat)
      rw [if_neg hflat]
      cases hsigma : sigmaThreshold rule.params with
      | none => simp
      | some sigma =>
        have hfar : (|r.value - mean values| / std sqrt values ≤ sigma) ↔
            ¬ sigma * std sqrt values < |r.value - mean values| := by rw [div_le_iff₀ hpos, not_lt]
        by_cases hnear : |r.value - mean values| / std sqrt values ≤ sigma
        · simp [hnear, hfar.mp hnear]
        · have hlt : sigma * std sqrt values < |r.value - mean values| := not_not.mp fun h => hnear (hfar.mpr h)
          simp [hnear, hlt, not_lt.mp hfew, not_lt.mp hflat, eq_comm]

theorem outcome_adaptive {g : Stage K} (hkind : g.rule.kind = .adaptive) {alarm : AlarmData K} :
    g.outcome texts sqrt = .ok (some alarm) ↔
      minSamples ≤ g.values.length ∧ leastStd ≤ std sqrt g.values ∧ ∃ sigma ∈ sigmaThreshold g.rule.params,
        sigma * std sqrt g.values < |g.reading.value - mean g.values| ∧
          alarm = adaptiveAlarm texts g.rule g.reading (mean g.values) (std sqrt g.values)
            (|g.reading.value - mean g.values| / std sqrt g.values) sigma := by
  rw [← judge_eq_some]
  simp only [Stage.outcome, evaluate, hkind, evaluateAdaptive, Stage.values]
  cases samples g.rule.params with
  | error e => simp [judge, minSamples]
  | ok n => rfl

/-- The upper limit of the band is the right one for what lies above, and where both limits are one. -/
theorem adaptiveAlarm_violated_iff {g : Stage K} (hkind : g.rule.kind = .adaptive) {sigma zScore : K}
    (hsigma : sigma ∈ sigmaThreshold g.rule.params) (hvaries : leastStd ≤ std sqrt g.values)
    (hfar : sigma * std sqrt g.values < |g.reading.value - mean g.values|) :
    (g.band sqrt).Violated (adaptiveAlarm texts g.rule g.reading (mean g.values) (std sqrt g.values) zScore sigma) ↔
      mean g.values + sigma * std sqrt g.values < g.reading.value ∨ sigma = 0 := by
  have hpos : 0 < std sqrt g.values := lt_of_lt_of_le leastStd_pos hvaries
  have hsome : sigmaThreshold g.rule.params = some sigma := hsigma
  simp only [Band.Violated, Stage.band, hkind, hsome, Option.map_some, adaptiveAlarm, true_and, Option.some.injEq]
  constructor
  · rintro (habove | ⟨hlimits, -⟩)
    · exact .inl habove
    · have hzero : sigma * std sqrt g.values = 0 := by linarith
      exact .inr ((mul_eq_zero.mp hzero).resolve_right hpos.ne')
  · rintro (habove | rfl)
    · exact .inl habove
    · -- without a deviation to allow for, both limits are the mean
      rw [zero_mul, abs_pos, sub_ne_zero] at hfar
      rw [zero_mul, add_zero, sub_zero]
      rcases lt_or_gt_of_ne hfar with hbelow | habove
      · exact .inr ⟨rfl, hbelow⟩
      · exact .inl habove

/-- A threshold rule reports the limit that was passed, and an adaptive one unless the reading undershot. -/
theorem violated_iff (g : Stage K) :
    (∀ alarm, g.outcome texts sqrt = .ok (some alarm) → (g.band sqrt).Violated alarm) ↔ ¬ g.Undershot sqrt := by
  cases hkind : g.rule.kind with
  | threshold =>
    have hnot : ¬ g.Undershot sqrt := fun h => by simpa [hkind] using h.adaptive
    refine ⟨fun _ => hnot, fun _ alarm halarm => ?_⟩
    simp only [Stage.outcome, evaluate, hkind] at halarm
    simpa only [Stage.band, hkind] using evaluateThreshold_violated halarm
  | adaptive =>
    refine ⟨fun hall h => ?_, fun hnot alarm halarm => ?_⟩
    · obtain ⟨sigma, hsigma, hzero, hfar, hbelow⟩ := h.below
      have halarm := hall _ ((outcome_adaptive hkind).mpr ⟨h.enough, h.varies, sigma, hsigma, hfar, rfl⟩)
      rcases (adaptiveAlarm_violated_iff hkind hsigma h.varies hfar).mp halarm with habove | hnone
      · exact absurd hbelow (not_le.mpr habove)
      · exact hzero hnone
    · obtain ⟨henough, hvaries, sigma, hsigma, hfar, rfl⟩ := (outcome_adaptive hkind).mp halarm
      refine (adaptiveAlarm_violated_iff hkind hsigma hvaries hfar).mpr ?_
      by_contra hneither
      obtain ⟨hbelow, hzero⟩ := not_or.mp hneither
      exact hnot ⟨hkind, henough, hvaries, sigma, hsigma, hzero, hfar, not_lt.mp hbelow⟩
  | mlAnomaly =>
    have hnot : ¬ g.Undershot sqrt := fun h => by simpa [hkind] using h.adaptive
    exact ⟨fun _ => hnot, fun _ alarm halarm => by simp [Stage.outcome, evaluate, hkind] at halarm⟩
  | energyIntensity =>
    have hnot : ¬ g.Undershot sqrt := fun h => by simpa [hkind] using h.adaptive
    exact ⟨fun _ => hnot, fun _ alarm halarm => by simp [Stage.outcome, evaluate, hkind] at halarm⟩

end

section
variable {K : Type} [Field K] [LinearOrder K] [IsStrictOrderedRing K] {sqrt : K → K}

/-- What undershoots a rule that allows for some deviation lies below the lower limit of its band. -/
theorem undershot_iff_of_pos {g : Stage K} (hkind : g.rule.kind = .adaptive) {sigma : K}
    (hsigma : sigmaThreshold g.rule.params = some sigma) (hpos : 0 < sigma) :
    g.Undershot sqrt ↔ minSamples ≤ g.values.length ∧ leastStd ≤ std sqrt g.values ∧
      g.reading.value < mean g.values - sigma * std sqrt g.values := by
  constructor
  · intro h
    obtain ⟨_, hsome, -, hfar, hbelow⟩ := h.below
    cases hsigma.symm.trans hsome
    refine ⟨h.enough, h.varies, ?_⟩
    rcases lt_abs.mp hfar with habove | hbelow
    · linarith
    · linarith
  · rintro ⟨henough, hvaries, hbelow⟩
    have hstd : 0 < std sqrt g.values := lt_of_lt_of_le leastStd_pos hvaries
    have hspread : 0 < sigma * std sqrt g.values := mul_pos hpos hstd
    refine ⟨hkind, henough, hvaries, sigma, hsigma, hpos.ne', lt_abs.mpr (.inr ?_), ?_⟩
    · linarith
    · linarith

end

/-! ## The window of a rule -/

section
variable {K : Type} [Field K] [LinearOrder K] (texts : Texts K) (sqrt : K → K)

/-- What an event adds to the list of a rule. -/
def Event.sample (ruleId : Uuid) : Event K → Option (Sample K)
  | .reading rule r => if rule.kind = .adaptive ∧ rule.id = ruleId then some ⟨r.value, r.time⟩ else none
  | .expired _ => none

/-- The rule asks for a window of `n` samples, and its list does not expire. -/
def Event.Keeps (ruleId : Uuid) (n : Nat) : Event K → Prop
  | .reading rule _ => rule.kind = .adaptive ∧ rule.id = ruleId → samples rule.params = .ok n
  | .expired expiredId => expiredId ≠ ruleId

theorem rtake_rtake_append {α : Type} (xs : List α) (x : α) (n : Nat) :
    (xs.rtake n ++ [x]).rtake n = (xs ++ [x]).rtake n := by
  cases n with
  | zero => simp
  | succ n => simp [List.rtake_eq_reverse_take_reverse, List.take_take]

theorem step_adaptive {s : Windows K} {rule : AlarmRule K} {r : Reading K} {n : Nat} (hkind : rule.kind = .adaptive)
    (hsamples : samples rule.params = .ok n) : step texts sqrt s (.reading rule r) = s.set rule.id (pushed s rule.id n r) := by
  simp only [step, evaluate, hkind, evaluateAdaptive, hsamples]

theorem step_of_ne {s : Windows K} {rule : AlarmRule K} {r : Reading K} (hkind : rule.kind ≠ .adaptive) :
    step texts sqrt s (.reading rule r) = s := by
  cases h : rule.kind with
  | adaptive => exact absurd h hkind
  | threshold | mlAnomaly | energyIntensity => simp only [step, evaluate, h]

theorem get?_step_of_none {s : Windows K} {e : Event K} {ruleId : Uuid} {n : Nat} (h : e.Keeps ruleId n)
    (hnone : e.sample ruleId = none) : (step texts sqrt s e).get? ruleId = s.get? ruleId := by
  cases e with
  | expired expiredId => exact (Dict.get?_pop s expiredId ruleId).trans (if_neg h)
  | reading rule r =>
    by_cases hkind : rule.kind = .adaptive
    · have hne : rule.id ≠ ruleId := fun hid => by simp [Event.sample, hkind, hid] at hnone
      cases hsamples : samples rule.params with
      | error e => simp only [step, evaluate, hkind, evaluateAdaptive, hsamples]
      | ok m => rw [step_adaptive texts sqrt hkind hsamples, Dict.get?_set, if_neg hne]
    · rw [step_of_ne texts sqrt hkind]

theorem get?_step_of_some {s : Windows K} {e : Event K} {ruleId : Uuid} {n : Nat} (h : e.Keeps ruleId n) {x : Sample K}
    (hsome : e.sample ruleId = some x) :
    (step texts sqrt s e).get? ruleId = some (((s.get? ruleId).getD [] ++ [x]).rtake n) := by
  cases e with
  | expired expiredId => cases hsome
  | reading rule r =>
    rw [Event.sample, Option.ite_none_right_eq_some] at hsome
    obtain ⟨hrule, hx⟩ := hsome
    cases hx
    rw [step_adaptive texts sqrt hrule.1 (h hrule), Dict.get?_set, if_pos hrule.2, hrule.2]
    rfl

/-- The window of a rule is its own: its last readings, as many as it asks for. -/
theorem window_run {stream : List (Event K)} {ruleId : Uuid} {n : Nat} (h : ∀ e ∈ stream, e.Keeps ruleId n) :
    ((run texts sqrt [] stream).get? ruleId).getD [] = (stream.filterMap (Event.sample ruleId)).rtake n := by
  induction stream using List.reverseRecOn with
  | nil => simp [run]
  | append_singleton stream e ih =>
    have hkeeps : e.Keeps ruleId n := h e (by simp)
    have hwindow := ih fun e he => h e (List.mem_append_left _ he)
    have hrun : run texts sqrt [] (stream ++ [e]) = step texts sqrt (run texts sqrt [] stream) e := List.foldl_concat ..
    rw [hrun, List.filterMap_append]
    cases hsample : e.sample ruleId with
    | none =>
      rw [get?_step_of_none texts sqrt hkeeps hsample, hwindow]
      simp [hsample]
    | some x =>
      rw [get?_step_of_some texts sqrt hkeeps hsample, hwindow, Option.getD_some, rtake_rtake_append]
      simp [hsample]

end

/-! ## Every stream -/

theorem stages_append {K : Type} [Field K] [LinearOrder K] (texts : Texts K) (sqrt : K → K) (s : Windows K)
    (es fs : List (Event K)) :
    stages texts sqrt s (es ++ fs) = stages texts sqrt s es ++ stages texts sqrt (run texts sqrt s es) fs := by
  induction es generalizing s with
  | nil => rfl
  | cons e es ih =>
    cases e with
    | reading rule r => exact congrArg (Stage.mk s rule r :: ·) (ih _)
    | expired ruleId => exact ih _

/-- Every alarm over a stream is evidence of a violation exactly if no reading of the stream undershoots. -/
theorem evidence_iff (texts : Texts ℝ) (s : Windows ℝ) (stream : List (Event ℝ)) :
    (∀ g ∈ stages texts Real.sqrt s stream, ∀ alarm, g.outcome texts Real.sqrt = .ok (some alarm) →
      (g.band Real.sqrt).Violated alarm) ↔ ∀ g ∈ stages texts Real.sqrt s stream, ¬ g.Undershot Real.sqrt :=
  forall₂_congr fun g _ => violated_iff g

/-- The rule that the seed gives a sensor of the oil. -/
def oilRule : AlarmRule ℝ :=
  ⟨1, .adaptive, "warning", [("sigma", .number 3.0), ("window", .text "1h"), ("metric", .text "oil.temp")]⟩

def oil (value : ℝ) : Reading ℝ := ⟨2, 3, value, "oil.temp", 0⟩

/-- Warm for a while, and then the sensor fails. -/
def stalled : List (Event ℝ) :=
  List.replicate 36 (.reading oilRule (oil 37)) ++ [.reading oilRule (oil 0)]

/-- The evaluation of the last reading. -/
noncomputable def stall (texts : Texts ℝ) : Stage ℝ :=
  ⟨run texts Real.sqrt [] (List.replicate 36 (.reading oilRule (oil 37))), oilRule, oil 0⟩

theorem stall_values (texts : Texts ℝ) : (stall texts).values = List.replicate 36 37 ++ [0] := by
  have hid : oilRule.id = 1 := rfl
  have hsamples : samples oilRule.params = .ok 3600 := rfl
  have hkeeps : ∀ e ∈ List.replicate 36 (Event.reading oilRule (oil 37)), e.Keeps 1 3600 := by
    intro e he
    rw [List.eq_of_mem_replicate he]
    exact fun _ => hsamples
  have hwindow := window_run texts Real.sqrt hkeeps
  have hsample : (Event.reading oilRule (oil 37)).sample 1 = some ⟨37, 0⟩ := rfl
  simp only [Stage.values, stall, hsamples, pushed, hid]
  rw [hwindow, rtake_rtake_append, List.filterMap_replicate_of_some hsample]
  simp [List.rtake, oil]

theorem stall_undershot (texts : Texts ℝ) : (stall texts).Undershot Real.sqrt := by
  have hmean : mean (stall texts).values = 36 := by
    rw [stall_values, mean]
    norm_num
  have hstd : std Real.sqrt (stall texts).values = 6 := by
    have hsquare : squares (List.replicate 36 37 ++ [0]) (36 : ℝ) / (List.replicate 36 (37 : ℝ) ++ [0]).length = 6 ^ 2 := by
      rw [squares]
      norm_num
    rw [std, hmean, stall_values, hsquare, Real.sqrt_sq (by norm_num)]
  have hsigma : sigmaThreshold (stall texts).rule.params = some 3.0 := rfl
  refine (undershot_iff_of_pos rfl hsigma (by norm_num)).mpr ⟨?_, ?_, ?_⟩
  · rw [stall_values]
    decide
  · rw [hstd, leastStd]
    norm_num
  · rw [hmean, hstd]
    norm_num [stall, oil]

/-- An alarm for 0 that carries 54 as its limit. -/
theorem stalled_misreported :
    ¬ ∀ (texts : Texts ℝ) (s : Windows ℝ) (stream : List (Event ℝ)), ∀ g ∈ stages texts Real.sqrt s stream, ∀ alarm,
      g.outcome texts Real.sqrt = .ok (some alarm) → (g.band Real.sqrt).Violated alarm := by
  intro h
  let texts : Texts ℝ := ⟨fun _ _ => "", fun _ => ""⟩
  refine (violated_iff (stall texts)).mp (h texts [] stalled (stall texts) ?_) (stall_undershot texts)
  rw [stalled, stages_append]
  exact List.mem_append_right _ List.mem_cons_self

end TwinVoice.Ingest.AlarmEngine
