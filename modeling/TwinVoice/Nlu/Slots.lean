import Mathlib.Data.List.Infix
import Mathlib.Logic.Function.Iterate
import Mathlib.Tactic.Ring
import TwinVoice.Lib.Dict
import TwinVoice.Nlu.Router

/-! # Slot parsing

`vocab.py` and `slots.py`: the raw span that a template captured becomes a
typed value. What `float()` and the Unicode tables accept is a `Lexicon`,
everything else is as the source has it; `now` is in UTC, as `handle` reads it. -/

namespace TwinVoice.Nlu

open TwinVoice.Lib

/-! ## Vocabularies -/

def kpiTerms : List (String × String) := [
  ("oee", "oee"), ("o e e", "oee"), ("overall equipment effectiveness", "oee"),
  ("availability", "availability"), ("uptime", "availability"), ("performance", "performance"),
  ("quality", "quality"), ("mtbf", "mtbf"), ("mean time between failures", "mtbf"), ("mttr", "mttr"),
  ("mean time to repair", "mttr"), ("energy per unit", "energy_per_unit"),
  ("energy intensity", "energy_per_unit"), ("specific energy", "energy_per_unit"),
  ("idle energy share", "idle_energy_share"), ("idle share", "idle_energy_share"),
  ("peak demand", "peak_demand"), ("peak power", "peak_demand")]

/-- A period is its bucket and the offset in buckets from the current one. -/
def periodTerms : List (String × String × Int) := [
  ("today", "day", 0), ("aaj", "day", 0), ("yesterday", "day", -1), ("kal", "day", -1),
  ("this week", "week", 0), ("is hafte", "week", 0), ("last week", "week", -1),
  ("pichle hafte", "week", -1), ("this month", "month", 0), ("last month", "month", -1),
  ("this shift", "shift", 0), ("last shift", "shift", -1), ("last hour", "hour", -1),
  ("last 24 hours", "day", -1), ("right now", "hour", 0), ("now", "hour", 0), ("abhi", "hour", 0)]

def severityTerms : List (String × String) := [
  ("critical", "critical"), ("high", "high"), ("warning", "warning"), ("warn", "warning"),
  ("info", "info"), ("minor", "info")]

def viewTerms : List (String × String) := [
  ("fleet", "/"), ("dashboard", "/"), ("home", "/"), ("twin", "/twin"), ("explorer", "/explorer"),
  ("trends", "/explorer"), ("alarms", "/alarms"), ("maintenance", "/maintenance"),
  ("work orders", "/maintenance"), ("schedule", "/maintenance/schedule"),
  ("gantt", "/maintenance/schedule"), ("production", "/analytics/production"),
  ("oee", "/analytics/production"), ("energy", "/analytics/energy"), ("power", "/analytics/energy"),
  ("models", "/models"), ("reports", "/reports"), ("simulation", "/simulation"), ("voice", "/voice")]

def reportTypeTerms : List (String × String) := [
  ("machine health", "machine_health"), ("health", "machine_health"),
  ("weekly maintenance", "weekly_maintenance"), ("weekly", "weekly_maintenance"),
  ("maintenance", "weekly_maintenance"), ("energy", "energy"), ("benchmark", "benchmark"),
  ("model benchmark", "benchmark"), ("incident", "incident"), ("failure", "incident")]

def verdictTerms : List (String × String) := [
  ("wrong", "disagree"), ("incorrect", "disagree"), ("not right", "disagree"),
  ("disagree", "disagree"), ("galat", "disagree"), ("right", "agree"), ("correct", "agree"),
  ("agree", "agree"), ("sahi", "agree")]

def numberWords : List (String × Nat) := [
  ("zero", 0), ("one", 1), ("two", 2), ("three", 3), ("four", 4), ("five", 5), ("six", 6),
  ("seven", 7), ("eight", 8), ("nine", 9), ("ten", 10), ("eleven", 11), ("twelve", 12),
  ("twenty", 20), ("thirty", 30), ("forty", 40), ("fifty", 50), ("sixty", 60), ("seventy", 70),
  ("eighty", 80), ("ninety", 90), ("ek", 1), ("do", 2), ("teen", 3), ("char", 4), ("chaar", 4),
  ("paanch", 5), ("panch", 5), ("chhe", 6), ("saat", 7), ("aath", 8), ("nau", 9), ("das", 10)]

def weekdays : List (String × Int) := [
  ("monday", 0), ("tuesday", 1), ("wednesday", 2), ("thursday", 3), ("friday", 4), ("saturday", 5),
  ("sunday", 6), ("somwar", 0), ("mangalwar", 1), ("budhwar", 2), ("guruwar", 3), ("shukrawar", 4),
  ("shanivar", 5), ("ravivar", 6)]

def timeOfDay : List (String × Int) := [
  ("morning", 8), ("subah", 8), ("noon", 12), ("afternoon", 14), ("dopahar", 14), ("evening", 18),
  ("shaam", 18), ("night", 22), ("raat", 22)]

/-- `_ASSET_NOISE`: words around a machine name that are never part of it. -/
def assetNoise : List String :=
  ["the", "a", "an", "machine", "asset", "ka", "ki", "ke", "wala", "wali", "pe", "par"]

/-- `WHAT_IF_PARAMETERS`: the first parameter whose marker words appear wins. -/
def whatIfParameters : List (String × List String) := [
  ("maintenance_at", ["service", "maintain", "maintenance", "wait", "repair"]),
  ("speed", ["speed", "rpm", "feed"]),
  ("load", ["load", "utilisation", "utilization", "duty"])]

/-- The Unicode tables, what `\d` matches and what `float()` makes of a word. -/
structure Lexicon where
  tables : UnicodeTables
  isDigit : Char → Bool
  float? : String → Option Rat

namespace Lexicon

/-- `normalise(text).split()`. -/
def words (x : Lexicon) (text : String) : List String :=
  (((normalise x.tables text).toList.splitOnP x.tables.isSpace).filter (· ≠ [])).map String.ofList

def parseNumber (x : Lexicon) (text : String) : Option Rat :=
  if text = "" then none
  else
    let cleaned := ((normalise x.tables text).replace "percent" "").replace "%" ""
    let tokens := ((cleaned.toList.splitOnP x.tables.isSpace).filter (· ≠ [])).map String.ofList
    tokens.findSome? fun token => (x.float? token).or ((numberWords.lookup token).map Nat.cast)

/-- Strip filler and expand a spoken ordinal. -/
def parseAsset (x : Lexicon) (text : String) : Option String :=
  let tokens := (x.words text).filter (· ∉ assetNoise)
  if text = "" ∨ tokens = [] then none
  else some (String.intercalate " " (tokens.map fun t => ((numberWords.lookup t).map toString).getD t))

/-- `_lookup`. -/
def lookup (x : Lexicon) (vocab : List (String × String)) (text : String) : Option String :=
  if text = "" then none else vocab.lookup (normalise x.tables text)

end Lexicon

/-! ## Calendar -/

def hourMicros : Int := 3600000000

def dayMicros : Int := 86400000000

/-- `now.replace(hour=0, minute=0, second=0, microsecond=0)`. -/
def midnightOf (t : Instant) : Instant := t - t % dayMicros

/-- `now.weekday()`, Monday being 0. -/
def weekdayOf (t : Instant) : Int := (t / dayMicros + 3) % 7

/-- The day of the year counted from the first of March, for a day counted from 1970. -/
def dayOfShiftedYear (day : Int) : Int :=
  let dayOfEra := (day + 719468) % 146097
  let dayOfCentury := dayOfEra - 36524 * min (dayOfEra / 36524) 3
  let dayOfQuartet := dayOfCentury % 1461
  dayOfQuartet - 365 * min (dayOfQuartet / 365) 3

/-- The day of the month, from 1 on. -/
def dayOfMonth (day : Int) : Int :=
  let month := (5 * dayOfShiftedYear day + 2) / 153
  dayOfShiftedYear day - (153 * month + 2) / 5 + 1

/-- The month, January being 1. -/
def monthOf (day : Int) : Int :=
  let month := (5 * dayOfShiftedYear day + 2) / 153
  if month < 10 then month + 3 else month - 9

theorem dayOfMonth_bounds (day : Int) : 1 ≤ dayOfMonth day ∧ dayOfMonth day ≤ 31 := by
  have hbounds (n : Int) : 1 ≤ n - (153 * ((5 * n + 2) / 153) + 2) / 5 + 1 ∧
      n - (153 * ((5 * n + 2) / 153) + 2) / 5 + 1 ≤ 31 := by omega
  exact hbounds (dayOfShiftedYear day)

example : (dayOfMonth 0, monthOf 0) = (1, 1) ∧ (dayOfMonth 19782, monthOf 19782) = (29, 2) := by decide

/-- Going back by less than the remainder does not leave the unit. -/
theorem emod_back {z m k : Int} (hm : 0 < m) (hk : 0 ≤ k) (hle : k ≤ z % m) : (z - k) % m = z % m - k := by
  have hlt : z % m < m := Int.emod_lt_of_pos z hm
  have hsame : (z - k) % m = (z % m - k) % m := by rw [Int.sub_emod z k, Int.sub_emod (z % m) k, Int.emod_emod]
  rw [hsame, Int.emod_eq_of_lt (by omega) (by omega)]

theorem dayOfShiftedYear_nonneg (day : Int) : 0 ≤ dayOfShiftedYear day := by
  simp only [dayOfShiftedYear]
  omega

theorem dayOfShiftedYear_back {day k : Int} (hk : 0 ≤ k) (hle : k ≤ dayOfShiftedYear day) :
    dayOfShiftedYear (day - k) = dayOfShiftedYear day - k := by
  simp only [dayOfShiftedYear] at hle ⊢
  generalize hera : (day + 719468) % 146097 = dayOfEra at hle
  generalize hcentury : dayOfEra - 36524 * min (dayOfEra / 36524) 3 = dayOfCentury at hle
  generalize hquartet : dayOfCentury % 1461 = dayOfQuartet at hle
  have hyear : dayOfQuartet - k - 365 * min ((dayOfQuartet - k) / 365) 3 =
      dayOfQuartet - 365 * min (dayOfQuartet / 365) 3 - k := by omega
  have hinCentury : (dayOfCentury - k) % 1461 = dayOfQuartet - k := by
    rw [← hquartet]
    exact emod_back (by decide) hk (by omega)
  have hinEra : dayOfEra - k - 36524 * min ((dayOfEra - k) / 36524) 3 = dayOfCentury - k := by omega
  have hback : (day - k + 719468) % 146097 = dayOfEra - k := by
    rw [← hera, sub_add_eq_add_sub]
    exact emod_back (by decide) hk (by omega)
  rw [hback, hinEra, hinCentury]
  exact hyear

/-- Back within its month, a day counts down. -/
theorem dayOfMonth_back {day k : Int} (hk : 0 ≤ k) (hle : k < dayOfMonth day) :
    dayOfMonth (day - k) = dayOfMonth day - k := by
  have hwithin (n : Int) (hn : 0 ≤ n) (hlt : k < n - (153 * ((5 * n + 2) / 153) + 2) / 5 + 1) : k ≤ n := by omega
  have hback := dayOfShiftedYear_back hk (hwithin _ (dayOfShiftedYear_nonneg day) hle)
  have hmonth (n m back : Int) (hm : m = (5 * n + 2) / 153) (hlt : k < n - (153 * m + 2) / 5 + 1)
      (hback : back = n - k) :
      back - (153 * ((5 * back + 2) / 153) + 2) / 5 + 1 = n - (153 * m + 2) / 5 + 1 - k := by
    have hsame : (5 * back + 2) / 153 = m := by omega
    omega
  exact hmonth (dayOfShiftedYear day) _ _ rfl hle hback

/-- Back by all but one of its days, a month is at its first. -/
theorem dayOfMonth_first (day : Int) : dayOfMonth (day - (dayOfMonth day - 1)) = 1 := by
  obtain ⟨hlow, -⟩ := dayOfMonth_bounds day
  rw [dayOfMonth_back (by omega) (by omega)]
  omega

/-- `midnight.replace(day=d)`, for a midnight. -/
def replaceDay (midnight : Instant) (d : Int) : Instant :=
  midnight + (d - dayOfMonth (midnight / dayMicros)) * dayMicros

/-- The instant is on the first day of a month. -/
def OnFirst (t : Instant) : Prop := dayOfMonth (t / dayMicros) = 1

theorem onFirst_replaceDay (t : Instant) : OnFirst (replaceDay t 1) := by
  have hdays (t d : Int) : (t + (1 - d) * 86400000000) / 86400000000 = t / 86400000000 - (d - 1) := by omega
  have hday : replaceDay t 1 / dayMicros = t / dayMicros - (dayOfMonth (t / dayMicros) - 1) := hdays t _
  unfold OnFirst
  rw [hday]
  exact dayOfMonth_first _

/-- `_next_month`. -/
def nextMonth (first : Instant) : Instant :=
  replaceDay (replaceDay first 28 + 4 * dayMicros) 1

def previousMonth (first : Instant) : Instant := replaceDay (first - dayMicros) 1

structure Period where
  code : String
  start : Instant
  stop : Instant
  deriving DecidableEq

/-- `_bucket_bounds`. A shift has no fixed length here; the analytics layer snaps it. -/
def bucketBounds (bucket : String) (offset : Int) (now : Instant) : Period :=
  let midnight := midnightOf now
  if bucket = "hour" then
    let start := now - now % hourMicros + offset * hourMicros
    ⟨"hour", start, start + hourMicros⟩
  else if bucket = "day" then
    let start := midnight + offset * dayMicros
    ⟨"day", start, start + dayMicros⟩
  else if bucket = "week" then
    let start := midnight - weekdayOf midnight * dayMicros + offset * (7 * dayMicros)
    ⟨"week", start, start + 7 * dayMicros⟩
  else if bucket = "month" then
    let step := if offset < 0 then previousMonth else nextMonth
    let first := step^[offset.natAbs] (replaceDay midnight 1)
    ⟨"month", first, nextMonth first⟩
  else
    let start := midnight + 8 * offset * hourMicros
    ⟨"shift", start, start + 8 * hourMicros⟩

theorem previousMonth_lt (first : Instant) : previousMonth first < first := by
  obtain ⟨hlow, -⟩ := dayOfMonth_bounds ((first - dayMicros) / dayMicros)
  have hback (t d : Int) (hd : 1 ≤ d) : t - 86400000000 + (1 - d) * 86400000000 < t := by omega
  exact hback first _ hlow

/-- Four days after the 28th is in the next month. -/
theorem OnFirst.lt_nextMonth {first : Instant} (h : OnFirst first) : first < nextMonth first := by
  let later := replaceDay first 28 + 4 * dayMicros
  obtain ⟨-, hhigh⟩ := dayOfMonth_bounds (later / dayMicros)
  have hon (t d e : Int) (hd : d = 1) (he : e ≤ 31) :
      t < t + (28 - d) * 86400000000 + 4 * 86400000000 + (1 - e) * 86400000000 := by omega
  exact hon first _ _ h hhigh

/-- Stepping from month to month stays on the first days. -/
theorem onFirst_iterate {step : Instant → Instant} (hstep : ∀ t, OnFirst (step t)) {first : Instant}
    (h : OnFirst first) (n : Nat) : OnFirst (step^[n] first) := by
  induction n with
  | zero => exact h
  | succ n ih =>
    rw [Function.iterate_succ_apply']
    exact hstep _

theorem iterate_previousMonth_lt (first : Instant) (n : Nat) : previousMonth^[n + 1] first < first := by
  induction n with
  | zero => exact previousMonth_lt first
  | succ n ih =>
    rw [Function.iterate_succ_apply']
    exact (previousMonth_lt _).trans ih

theorem OnFirst.lt_iterate_nextMonth {first : Instant} (h : OnFirst first) (n : Nat) :
    first < nextMonth^[n + 1] first := by
  induction n with
  | zero => exact h.lt_nextMonth
  | succ n ih =>
    rw [Function.iterate_succ_apply']
    exact ih.trans (onFirst_iterate (fun t => onFirst_replaceDay _) h _).lt_nextMonth

/-- A period has a length. -/
theorem bucketBounds_ordered (bucket : String) (offset : Int) (now : Instant) :
    (bucketBounds bucket offset now).start < (bucketBounds bucket offset now).stop := by
  have hlater (t d : Int) (hd : 0 < d) : t < t + d := by omega
  unfold bucketBounds
  by_cases hhour : bucket = "hour"
  · rw [if_pos hhour]
    exact hlater _ hourMicros (by decide)
  rw [if_neg hhour]
  by_cases hday : bucket = "day"
  · rw [if_pos hday]
    exact hlater _ dayMicros (by decide)
  rw [if_neg hday]
  by_cases hweek : bucket = "week"
  · rw [if_pos hweek]
    exact hlater _ (7 * dayMicros) (by decide)
  rw [if_neg hweek]
  by_cases hmonth : bucket = "month"
  · rw [if_pos hmonth]
    refine OnFirst.lt_nextMonth (onFirst_iterate (fun t => ?_) (onFirst_replaceDay _) _)
    by_cases hoffset : offset < 0
    · rw [if_pos hoffset]
      exact onFirst_replaceDay _
    · rw [if_neg hoffset]
      exact onFirst_replaceDay _
  · rw [if_neg hmonth]
    exact hlater _ (8 * hourMicros) (by decide)

/-- Only the period of offset 0 is the present one. -/
theorem bucketBounds_start_ne (bucket : String) {offset : Int} (hoffset : offset ≠ 0) (now : Instant) :
    (bucketBounds bucket offset now).start ≠ (bucketBounds bucket 0 now).start := by
  have hmoved (t d o : Int) (hd : 0 < d) (ho : o ≠ 0) : t + o * d ≠ t + 0 * d := by
    intro heq
    have hzero : o * d = 0 := by omega
    rcases Int.mul_eq_zero.mp hzero with h | h
    · exact ho h
    · exact absurd h (by omega)
  unfold bucketBounds
  by_cases hhour : bucket = "hour"
  · rw [if_pos hhour, if_pos hhour]
    exact hmoved _ hourMicros _ (by decide) hoffset
  rw [if_neg hhour, if_neg hhour]
  by_cases hday : bucket = "day"
  · rw [if_pos hday, if_pos hday]
    exact hmoved _ dayMicros _ (by decide) hoffset
  rw [if_neg hday, if_neg hday]
  by_cases hweek : bucket = "week"
  · rw [if_pos hweek, if_pos hweek]
    exact hmoved _ (7 * dayMicros) _ (by decide) hoffset
  rw [if_neg hweek, if_neg hweek]
  by_cases hmonth : bucket = "month"
  · rw [if_pos hmonth, if_pos hmonth]
    obtain ⟨n, hn⟩ := Nat.exists_eq_succ_of_ne_zero (Int.natAbs_ne_zero.mpr hoffset)
    show (if offset < 0 then previousMonth else nextMonth)^[offset.natAbs] (replaceDay (midnightOf now) 1) ≠
      replaceDay (midnightOf now) 1
    rw [hn]
    by_cases hpast : offset < 0
    · rw [if_pos hpast]
      exact (iterate_previousMonth_lt _ n).ne
    · rw [if_neg hpast]
      exact ((onFirst_replaceDay _).lt_iterate_nextMonth n).ne'
  · rw [if_neg hmonth, if_neg hmonth]
    have height (o : Int) : 8 * o * hourMicros = o * (8 * hourMicros) := by ring
    show midnightOf now + 8 * offset * hourMicros ≠ midnightOf now + 8 * 0 * hourMicros
    rw [height, height]
    exact hmoved _ (8 * hourMicros) _ (by decide) hoffset

/-- The code of a period is a bucket with the same bounds. -/
theorem bucketBounds_code (bucket : String) (offset offset' : Int) (now now' : Instant) :
    bucketBounds (bucketBounds bucket offset now).code offset' now' = bucketBounds bucket offset' now' ∧
      (bucketBounds bucket offset now).code ≠ "" := by
  unfold bucketBounds
  by_cases hhour : bucket = "hour"
  · simp [hhour]
  by_cases hday : bucket = "day"
  · simp [hday]
  by_cases hweek : bucket = "week"
  · simp [hweek]
  by_cases hmonth : bucket = "month"
  · simp [hmonth]
  · simp [hhour, hday, hweek, hmonth]

/-! ## Typed slots -/

namespace Lexicon

/-- The bucket and the offset of a spoken period; what is no period is today. -/
def periodTerm (x : Lexicon) (text : String) : String × Int :=
  (periodTerms.lookup (normalise x.tables text)).getD ("day", 0)

def parsePeriod (x : Lexicon) (text : String) (now : Instant) : Period :=
  bucketBounds (x.periodTerm text).1 (x.periodTerm text).2 now

/-- Resolve a spoken time to the next matching instant. -/
def parseDatetime (x : Lexicon) (text : String) (now : Instant) : Option Instant :=
  let tokens := x.words text
  let hour := (tokens.findSome? fun t => timeOfDay.lookup t).getD 8
  let base := midnightOf now + hour * hourMicros
  if text = "" then none
  else if "tomorrow" ∈ tokens ∨ "kal" ∈ tokens then some (base + dayMicros)
  else if "today" ∈ tokens ∨ "aaj" ∈ tokens then some base
  else match tokens.findSome? fun t => weekdays.lookup t with
    | some weekday =>
      let ahead := (weekday - weekdayOf now) % 7
      let more := if (ahead = 0 ∨ "next" ∈ tokens) ∧ (base ≤ now ∨ "next" ∈ tokens) then 7 else 0
      some (base + (ahead + more) * dayMicros)
    | none =>
      if "week" ∈ tokens ∨ "hafte" ∈ tokens then some (base + 7 * dayMicros)
      else if tokens.any fun t => (timeOfDay.lookup t).isSome then
        some (if base > now then base else base + dayMicros)
      else none

/-- The typed value of a slot, or nothing where the span has none. -/
def parseSlot (x : Lexicon) (type value : String) (now : Instant) : Option Value :=
  match type with
  | "asset" | "alarm" => (x.parseAsset value).map .text
  | "number" => (x.parseNumber value).map .number
  | "kpi" => (x.lookup kpiTerms value).map .text
  | "severity" => (x.lookup severityTerms value).map .text
  | "report_type" => (x.lookup reportTypeTerms value).map .text
  | "verdict" => some (.text ((x.lookup verdictTerms value).getD value))
  | "view" => some (.text ((viewTerms.lookup (normalise x.tables value)).getD value))
  | "period" => some (.text (x.parsePeriod value now).code)
  | "datetime" => (x.parseDatetime value now).map .instant
  | _ => some (.text (normalise x.tables value))

theorem words_ne_empty {x : Lexicon} {text word : String} (h : word ∈ x.words text) : word ≠ "" := by
  obtain ⟨chars, hchars, rfl⟩ := List.mem_map.mp h
  have hne : chars ≠ [] := by simpa using (List.mem_filter.mp hchars).2
  exact fun hempty => hne (by simpa using congrArg String.toList hempty)

theorem intercalate_ne_empty {sep s : String} (ss : List String) (h : s ≠ "") : sep.intercalate (s :: ss) ≠ "" := by
  cases ss with
  | nil => simpa using h
  | cons t ts =>
    intro hempty
    have hlist := congrArg String.toList hempty
    simp [List.intercalate, h] at hlist

/-- What is said of a machine is never empty. -/
theorem parseAsset_ne_empty {x : Lexicon} {text spoken : String} (h : x.parseAsset text = some spoken) :
    spoken ≠ "" := by
  unfold parseAsset at h
  have hwords (t : String) (ht : t ∈ (x.words text).filter (· ∉ assetNoise)) : t ≠ "" :=
    words_ne_empty (List.mem_of_mem_filter ht)
  generalize (x.words text).filter (· ∉ assetNoise) = tokens at h hwords
  cases tokens with
  | nil => simp at h
  | cons token tokens =>
    by_cases htext : text = ""
    · simp [htext] at h
    · simp only [htext, List.cons_ne_nil, or_self, if_false, Option.some.injEq] at h
      rw [← h, List.map_cons]
      refine intercalate_ne_empty _ ?_
      cases numberWords.lookup token with
      | none => exact hwords token List.mem_cons_self
      | some n => simp

/-- Every other slot is text. -/
theorem parseSlot_text {x : Lexicon} {type value : String} {now : Instant} {v : Value} (hnumber : type ≠ "number")
    (hdatetime : type ≠ "datetime") (h : x.parseSlot type value now = some v) : ∃ s, v = .text s := by
  have hmap {o : Option String} (ho : o.map Value.text = some v) : ∃ s, v = .text s := by
    obtain ⟨s, -, rfl⟩ := Option.map_eq_some_iff.mp ho
    exact ⟨s, rfl⟩
  have hsome {s : String} (hs : some (Value.text s) = some v) : ∃ s, v = .text s :=
    ⟨s, (Option.some.inj hs).symm⟩
  unfold parseSlot at h
  split at h
  case h_3 => exact absurd rfl hnumber
  case h_10 => exact absurd rfl hdatetime
  all_goals first
    | exact hmap h
    | exact hsome h

/-- One slot of `parse_slots`: a period brings its bounds along, and a span without a value leaves nothing. -/
def addSlot (x : Lexicon) (now : Instant) (raw : List (String × String)) (parsed : Params) (slot : Slot) :
    Params :=
  match raw.lookup slot.name with
  | none => parsed
  | some value =>
    match x.parseSlot slot.type value now with
    | none => Dict.pop parsed slot.name
    | some v =>
      if slot.type = "period" then
        ((parsed.set slot.name v).set "period_start" (.instant (x.parsePeriod value now).start)).set
          "period_end" (.instant (x.parsePeriod value now).stop)
      else parsed.set slot.name v

/-- Raw captures as typed values, one entry for each slot that the utterance carried. -/
def parseSlots (x : Lexicon) (intent : Intent) (raw : List (String × String)) (now : Instant) : Params :=
  intent.slots.foldl (x.addSlot now raw) []

/-- Slots that a template implies but does not capture. -/
def inferMissing (x : Lexicon) (intentName utterance : String) (slots : List (String × String)) :
    List (String × String) :=
  let text := normalise x.tables utterance
  let has (name : String) : Bool := name ∈ slots.map Prod.fst
  if intentName = "run_what_if" ∧ !has "parameter" then
    let tokens := x.words utterance
    let hit := whatIfParameters.find? fun e => tokens.any (· ∈ e.2)
    slots ++ [("parameter", (hit.map Prod.fst).getD "load")]
  else if intentName = "give_feedback" ∧ !has "verdict" then
    let hit := verdictTerms.find? fun e => e.1.toList <:+: text.toList
    slots ++ [("verdict", (hit.map Prod.snd).getD "disagree")]
  else if intentName = "navigate_dashboard" ∧ !has "view" ∧ !has "asset" ∧
      ("back".toList <:+: text.toList ∨ "wapas".toList <:+: text.toList) then
    slots ++ [("view", "back")]
  else slots

/-! ## What parsing leaves -/

variable {x : Lexicon} {now : Instant} {raw : List (String × String)}

/-- The bounds of a period are no slots of their own. -/
def boundKeys : List String := ["period_start", "period_end"]

/-- The entries of a slot with a value, at a key that is no bound. -/
theorem get?_filled (parsed : Params) (slot : Slot) (v start stop : Value) {key : String}
    (hkey : key ∉ boundKeys) :
    Dict.get? (if slot.type = "period"
        then ((parsed.set slot.name v).set "period_start" start).set "period_end" stop
        else parsed.set slot.name v) key =
      if slot.name = key then some v else Dict.get? parsed key := by
  have hset : Dict.get? (parsed.set slot.name v) key =
      if slot.name = key then some v else Dict.get? parsed key := Dict.get?_set parsed slot.name v key
  obtain ⟨hstart, hstop⟩ : "period_start" ≠ key ∧ "period_end" ≠ key := by
    simpa [boundKeys, eq_comm] using hkey
  by_cases htype : slot.type = "period"
  · rw [if_pos htype, ← hset]
    refine (Dict.get?_set _ _ _ _).trans ?_
    rw [if_neg hstop]
    refine (Dict.get?_set _ _ _ _).trans ?_
    rw [if_neg hstart]
  · rw [if_neg htype, hset]

theorem get?_addSlot (parsed : Params) (slot : Slot) {key : String} (hkey : key ∉ boundKeys) :
    Dict.get? (x.addSlot now raw parsed slot) key =
      if slot.name = key then (raw.lookup key).elim (Dict.get? parsed key) fun v => x.parseSlot slot.type v now
      else Dict.get? parsed key := by
  unfold addSlot
  by_cases hname : slot.name = key
  · subst hname
    cases raw.lookup slot.name with
    | none => rw [if_pos rfl, Option.elim_none]
    | some value =>
      rw [if_pos rfl, Option.elim_some]
      cases hvalue : x.parseSlot slot.type value now with
      | none => simp only [hvalue, Dict.get?_pop, if_true]
      | some v => simp only [hvalue, get?_filled parsed slot v _ _ hkey, if_true]
  · rw [if_neg hname]
    cases raw.lookup slot.name with
    | none => rfl
    | some value =>
      cases hvalue : x.parseSlot slot.type value now with
      | none => simp only [hvalue, Dict.get?_pop, if_neg hname]
      | some v => simp only [hvalue, get?_filled parsed slot v _ _ hkey, if_neg hname]

theorem get?_foldl_addSlot {slots : List Slot} (hnames : (slots.map Slot.name).Nodup) {key : String}
    (hkey : key ∉ boundKeys) (parsed : Params) :
    Dict.get? (slots.foldl (x.addSlot now raw) parsed) key =
      ((slots.find? (·.name = key)).bind fun slot =>
        (raw.lookup key).map fun v => x.parseSlot slot.type v now).getD (Dict.get? parsed key) := by
  induction slots generalizing parsed with
  | nil => rfl
  | cons slot slots ih =>
    obtain ⟨hfresh, hrest⟩ := List.nodup_cons.mp hnames
    rw [List.foldl_cons, ih hrest, get?_addSlot parsed slot hkey, List.find?_cons]
    by_cases hname : slot.name = key
    · have hnone : slots.find? (·.name = key) = none := by
        refine List.find?_eq_none.mpr fun other hother hsame => hfresh ?_
        rw [hname, ← of_decide_eq_true hsame]
        exact List.mem_map_of_mem hother
      simp only [hname, decide_true, hnone, Option.bind_none, Option.getD_none, if_true, Option.bind_some]
      cases raw.lookup key <;> rfl
    · simp only [hname, decide_false, if_false]

/-- Under the name of a slot stands the typed value of what was captured for it. -/
theorem get?_parseSlots {intent : Intent} (hnames : (intent.slots.map Slot.name).Nodup) {key : String}
    (hkey : key ∉ boundKeys) :
    Dict.get? (x.parseSlots intent raw now) key =
      (intent.slots.find? (·.name = key)).bind fun slot =>
        (raw.lookup key).bind fun v => x.parseSlot slot.type v now := by
  unfold parseSlots
  rw [get?_foldl_addSlot hnames hkey]
  cases intent.slots.find? (·.name = key) with
  | none => rfl
  | some slot => cases raw.lookup key <;> rfl

/-- The bound of a period under a bound key. -/
def boundOf (key : String) (p : Period) : Instant := if key = "period_start" then p.start else p.stop

/-- The bounds of the spoken period, or what stood there before. -/
def spokenBound (x : Lexicon) (now : Instant) (raw : List (String × String)) (key : String)
    (before : Option Value) : Option Value :=
  (raw.lookup "period").elim before fun v => some (.instant (boundOf key (x.parsePeriod v now)))

theorem get?_addSlot_bound (parsed : Params) {slot : Slot} (hname : slot.name ∉ boundKeys)
    (hperiod : slot.type = "period" → slot.name = "period") {key : String} (hkey : key ∈ boundKeys) :
    Dict.get? (x.addSlot now raw parsed slot) key =
      if slot.type = "period" then x.spokenBound now raw key (Dict.get? parsed key)
      else Dict.get? parsed key := by
  have hne : slot.name ≠ key := fun h => hname (h ▸ hkey)
  unfold addSlot spokenBound
  by_cases htype : slot.type = "period"
  · rw [if_pos htype, hperiod htype]
    cases raw.lookup "period" with
    | none => rfl
    | some value =>
      simp only [htype, parseSlot, Option.elim_some, if_true]
      refine (Dict.get?_set _ _ _ _).trans ?_
      obtain rfl | rfl : key = "period_start" ∨ key = "period_end" := by simpa [boundKeys] using hkey
      · rw [if_neg (by decide)]
        exact (Dict.get?_set _ _ _ _).trans (if_pos rfl)
      · exact if_pos rfl
  · rw [if_neg htype]
    cases raw.lookup slot.name with
    | none => rfl
    | some value =>
      cases hvalue : x.parseSlot slot.type value now with
      | none => simp only [hvalue, Dict.get?_pop, if_neg hne]
      | some v =>
        simp only [hvalue, if_neg htype]
        exact (Dict.get?_set _ _ _ _).trans (if_neg hne)

theorem get?_foldl_addSlot_bound {slots : List Slot} (hnames : ∀ s ∈ slots, s.name ∉ boundKeys)
    (hperiod : ∀ s ∈ slots, s.type = "period" → s.name = "period") {key : String} (hkey : key ∈ boundKeys)
    (parsed : Params) :
    Dict.get? (slots.foldl (x.addSlot now raw) parsed) key =
      if ∃ s ∈ slots, s.type = "period" then x.spokenBound now raw key (Dict.get? parsed key)
      else Dict.get? parsed key := by
  induction slots generalizing parsed with
  | nil => simp
  | cons slot slots ih =>
    obtain ⟨hname, hnames⟩ := List.forall_mem_cons.mp hnames
    obtain ⟨hslot, hperiod⟩ := List.forall_mem_cons.mp hperiod
    rw [List.foldl_cons, ih hnames hperiod, get?_addSlot_bound parsed hname hslot hkey]
    -- A second period slot would read the same capture again.
    have htwice : x.spokenBound now raw key (x.spokenBound now raw key (Dict.get? parsed key)) =
        x.spokenBound now raw key (Dict.get? parsed key) := by
      unfold spokenBound
      cases raw.lookup "period" <;> rfl
    by_cases htype : slot.type = "period" <;> by_cases hrest : ∃ s ∈ slots, s.type = "period"
    · simp [htype, hrest, htwice]
    · simp [htype, hrest]
    · simp [htype, hrest]
    · simp [htype, hrest]

/-- The bounds are there when a period was captured for a slot of that type. -/
theorem get?_parseSlots_bound {intent : Intent} (hnames : ∀ s ∈ intent.slots, s.name ∉ boundKeys)
    (hperiod : ∀ s ∈ intent.slots, s.type = "period" → s.name = "period") {key : String}
    (hkey : key ∈ boundKeys) :
    Dict.get? (x.parseSlots intent raw now) key =
      if ∃ s ∈ intent.slots, s.type = "period" then x.spokenBound now raw key none else none :=
  get?_foldl_addSlot_bound hnames hperiod hkey []

/-- A dictionary has each key once. -/
theorem nodup_addSlot {parsed : Params} (h : (parsed.map Prod.fst).Nodup) (slot : Slot) :
    ((x.addSlot now raw parsed slot).map Prod.fst).Nodup := by
  unfold addSlot
  split
  · exact h
  · split
    · exact h.sublist (List.filter_sublist.map _)
    · have hslot (v : Value) : ((parsed.set slot.name v).map Prod.fst).Nodup := Dict.nodup_set h slot.name v
      split
      · exact Dict.nodup_set (Dict.nodup_set (hslot _) _ _) _ _
      · exact hslot _

theorem nodup_parseSlots (x : Lexicon) (intent : Intent) (raw : List (String × String)) (now : Instant) :
    ((x.parseSlots intent raw now).map Prod.fst).Nodup := by
  unfold parseSlots
  have hfold (slots : List Slot) (parsed : Params) (h : (parsed.map Prod.fst).Nodup) :
      ((slots.foldl (x.addSlot now raw) parsed).map Prod.fst).Nodup := by
    induction slots generalizing parsed with
    | nil => exact h
    | cons slot slots ih => exact ih _ (nodup_addSlot h slot)
  exact hfold _ _ List.nodup_nil

end Lexicon

end TwinVoice.Nlu
