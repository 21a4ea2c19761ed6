import Mathlib.Order.Basic
import Mathlib.Tactic.Linarith
import TwinVoice.Lib.Traversal
import TwinVoice.Reports.Schedules

/-! # When a schedule fires

A history of ticks against one schedule. It should fire once in every minute
that matches and has a tick, and once in the first minute after an outage in
which matching minutes were missed. It does as long as such a minute matches
itself and has a tick ten minutes after the last run. -/

namespace TwinVoice.Reports

open TwinVoice.Lib

/-- The instants at which the loop came to the schedule. -/
structure History where
  ticks : List Instant
  sorted : ticks.Pairwise (· ≤ ·)

/-- The runs of a schedule in a history of ticks. -/
def firings (env : Environment) : ReportSchedule → List Instant → List Instant
  | _, [] => []
  | s, now :: rest =>
    match s.turn env now with
    | .ok (some _) => now :: firings env (s.markRun now) rest
    | _ => firings env s rest

/-- The schedule after a history. -/
def afterTicks (env : Environment) : ReportSchedule → List Instant → ReportSchedule
  | s, [] => s
  | s, now :: rest =>
    match s.turn env now with
    | .ok (some _) => afterTicks env (s.markRun now) rest
    | _ => afterTicks env s rest

/-! ## What is expected -/

section
variable (env : Environment) (c : Crontab)

/-- A minute that the expression names. -/
def Named (m : Int) : Prop := c.contains (env.civil m) = true

def Ticked (ticks : List Instant) (m : Int) : Prop := ∃ t ∈ ticks, minuteOf t = m

/-- No tick has come since before a named minute: an outage ends with this one. -/
def MissedBefore (ticks : List Instant) (m : Int) : Prop :=
  ∃ k, Named env c k ∧ k < m ∧ (∃ t ∈ ticks, minuteOf t < k) ∧ ∀ t ∈ ticks, minuteOf t < m → minuteOf t < k

def Due (ticks : List Instant) (m : Int) : Prop := Named env c m ∨ MissedBefore env c ticks m

/-- Exactly one run in every minute with a tick that is due, and none in another. -/
def FiresOnce (ticks runs : List Instant) : Prop :=
  ∀ m, Ticked ticks m →
    (Due env c ticks m → (runs.filter fun t => minuteOf t = m).length = 1) ∧
      (¬ Due env c ticks m → (runs.filter fun t => minuteOf t = m).length = 0)

/-- In the minute there is a tick that comes ten minutes after the last run. -/
def Rested (s : ReportSchedule) (ticks : List Instant) (m : Int) : Prop :=
  ∃ t ∈ ticks, minuteOf t = m ∧ rested t (afterTicks env s (ticks.filter fun t => minuteOf t < m)).lastRunAt = true

/-- The schedule is looked at, its expression can be evaluated and its report is not refused. -/
structure Live (s : ReportSchedule) : Prop where
  active : s.active = true
  cron : parse env s.cron = .ok c
  accepted : ∀ now, ∃ report, s.request env now = .ok report

end

/-! ## One turn -/

section
variable {env : Environment} {c : Crontab} {s : ReportSchedule}

/-- The schedule runs at the instant. -/
def firesAt (env : Environment) (c : Crontab) (s : ReportSchedule) (now : Instant) : Bool :=
  c.contains (env.civil (minuteOf now)) && rested now s.lastRunAt

theorem Live.turn_eq (h : Live env c s) (now : Instant) :
    s.turn env now = if firesAt env c s now then some <$> s.request env now else .ok none := by
  unfold ReportSchedule.turn isDue cronMatches
  rw [if_pos h.active, h.cron]
  rfl

theorem Live.markRun (h : Live env c s) (t : Instant) : Live env c (s.markRun t) := ⟨h.active, h.cron, h.accepted⟩

theorem Live.firings_cons (h : Live env c s) (now : Instant) (rest : List Instant) :
    firings env s (now :: rest) =
      if firesAt env c s now then now :: firings env (s.markRun now) rest else firings env s rest := by
  obtain ⟨report, hreport⟩ := h.accepted now
  rw [firings, h.turn_eq, hreport]
  cases firesAt env c s now <;> rfl

theorem Live.after_cons (h : Live env c s) (now : Instant) (rest : List Instant) :
    afterTicks env s (now :: rest) = if firesAt env c s now then afterTicks env (s.markRun now) rest else afterTicks env s rest := by
  obtain ⟨report, hreport⟩ := h.accepted now
  rw [afterTicks, h.turn_eq, hreport]
  cases firesAt env c s now <;> rfl

theorem Live.live_after (h : Live env c s) (ticks : List Instant) : Live env c (afterTicks env s ticks) := by
  induction ticks generalizing s with
  | nil => exact h
  | cons now rest ih =>
    rw [h.after_cons]
    split
    · exact ih (h.markRun now)
    · exact ih h

theorem Live.firings_append (h : Live env c s) (xs ys : List Instant) :
    firings env s (xs ++ ys) = firings env s xs ++ firings env (afterTicks env s xs) ys := by
  induction xs generalizing s with
  | nil => rfl
  | cons now rest ih =>
    rw [List.cons_append, h.firings_cons, h.firings_cons, h.after_cons]
    split
    · rw [ih (h.markRun now), List.cons_append]
    · exact ih h

theorem Live.mem_of_mem_firings (h : Live env c s) {ticks : List Instant} {t : Instant} (ht : t ∈ firings env s ticks) : t ∈ ticks := by
  induction ticks generalizing s with
  | nil => exact ht
  | cons now rest ih =>
    rw [h.firings_cons] at ht
    split at ht
    · rcases List.mem_cons.mp ht with rfl | ht
      · exact List.mem_cons_self
      · exact List.mem_cons_of_mem _ (ih (h.markRun now) ht)
    · exact List.mem_cons_of_mem _ (ih h ht)

/-! ## The ticks of one minute -/

theorem not_rested_within_minute {t t' : Instant} (h : minuteOf t' = minuteOf t) : rested t' (some t) = false := by
  have hclose : ∀ x y : Int, x / 60000000 = y / 60000000 → ¬ 600000000 ≤ x - y := by
    intro x y hxy
    omega
  exact decide_eq_false (hclose t' t h)

theorem Live.firings_unnamed (h : Live env c s) {ticks : List Instant} {m : Int} (hm : ∀ t ∈ ticks, minuteOf t = m)
    (hnamed : ¬ Named env c m) : firings env s ticks = [] := by
  induction ticks with
  | nil => rfl
  | cons now rest ih =>
    obtain ⟨hnow, hrest⟩ := List.forall_mem_cons.mp hm
    have hno : firesAt env c s now = false := by
      unfold firesAt
      rw [hnow, Bool.eq_false_iff.mpr hnamed, Bool.false_and]
    rw [h.firings_cons, hno]
    exact ih hrest

/-- No tick of the minute comes ten minutes after the last run: no run. -/
theorem Live.firings_unrested (h : Live env c s) {ticks : List Instant} (hrested : ∀ t ∈ ticks, rested t s.lastRunAt = false) :
    firings env s ticks = [] := by
  induction ticks with
  | nil => rfl
  | cons now rest ih =>
    obtain ⟨hnow, hrest⟩ := List.forall_mem_cons.mp hrested
    have hno : firesAt env c s now = false := by
      unfold firesAt
      rw [hnow, Bool.and_false]
    rw [h.firings_cons, hno]
    exact ih hrest

/-- Some tick of a named minute comes ten minutes after the last run: one run. -/
theorem Live.firings_rested (h : Live env c s) {ticks : List Instant} {m : Int} (hm : ∀ t ∈ ticks, minuteOf t = m)
    (hnamed : Named env c m) (hrested : ∃ t ∈ ticks, rested t s.lastRunAt = true) : (firings env s ticks).length = 1 := by
  induction ticks with
  | nil =>
    obtain ⟨t, ht, _⟩ := hrested
    cases ht
  | cons now rest ih =>
    obtain ⟨hnow, hrest⟩ := List.forall_mem_cons.mp hm
    rw [h.firings_cons]
    cases hfires : rested now s.lastRunAt with
    | true =>
      have hyes : firesAt env c s now = true := by
        unfold firesAt
        rw [hnow, hfires, Bool.and_true]
        exact hnamed
      rw [if_pos hyes, (h.markRun now).firings_unrested fun t ht => not_rested_within_minute ((hrest t ht).trans hnow.symm)]
      rfl
    | false =>
      have hno : firesAt env c s now = false := by
        unfold firesAt
        rw [hfires, Bool.and_false]
      rw [hno]
      refine ih hrest ?_
      obtain ⟨t, ht, htrue⟩ := hrested
      rcases List.mem_cons.mp ht with rfl | ht
      · rw [hfires] at htrue
        cases htrue
      · exact ⟨t, ht, htrue⟩

/-- The ticks before a minute, of it and after it. -/
theorem ticks_split {ticks : List Instant} (hsorted : ticks.Pairwise (· ≤ ·)) (m : Int) :
    ticks = (ticks.filter fun t => minuteOf t < m) ++ (ticks.filter fun t => minuteOf t = m) ++
      ticks.filter fun t => m < minuteOf t := by
  induction ticks with
  | nil => rfl
  | cons t rest ih =>
    obtain ⟨hfirst, hrest⟩ := List.pairwise_cons.mp hsorted
    have hlater : ∀ x ∈ rest, minuteOf t ≤ minuteOf x := fun x hx => Int.ediv_le_ediv (by decide) (hfirst x hx)
    have ih := ih hrest
    have hnone : ∀ p : Int → Bool, (∀ n, minuteOf t ≤ n → p n = false) → (rest.filter fun x => p (minuteOf x)) = [] :=
      fun p hp => List.filter_eq_nil_iff.mpr fun x hx => by simp [hp _ (hlater x hx)]
    rcases lt_trichotomy (minuteOf t) m with hlt | heq | hgt
    · rw [List.filter_cons_of_pos (by simpa using hlt), List.filter_cons_of_neg (by simp [hlt.ne]),
        List.filter_cons_of_neg (by simp [hlt.le]), List.cons_append, List.cons_append, ← ih]
    · have hbefore := hnone (fun n => n < m) fun n hn => decide_eq_false (heq ▸ hn).not_gt
      rw [hbefore, List.nil_append] at ih
      rw [List.filter_cons_of_neg (by simp [heq]), hbefore, List.filter_cons_of_pos (by simpa using heq),
        List.filter_cons_of_neg (by simp [heq]), List.nil_append, List.cons_append, ← ih]
    · have hbefore := hnone (fun n => n < m) fun n hn => decide_eq_false (hgt.trans_le hn).not_gt
      have hwithin := hnone (fun n => n = m) fun n hn => decide_eq_false (hgt.trans_le hn).ne'
      rw [hbefore, hwithin, List.nil_append, List.nil_append] at ih
      rw [List.filter_cons_of_neg (by simp [hgt.le]), hbefore, List.filter_cons_of_neg (by simp [hgt.ne']), hwithin,
        List.filter_cons_of_pos (by simpa using hgt), List.nil_append, List.nil_append, ← ih]

/-- In a minute with a tick there is one run if it is named and rested, and none otherwise. -/
theorem Live.runs_in_minute (h : Live env c s) (history : History) (m : Int) :
    (Named env c m ∧ Rested env s history.ticks m →
        ((firings env s history.ticks).filter fun t => minuteOf t = m).length = 1) ∧
      (¬ (Named env c m ∧ Rested env s history.ticks m) →
        ((firings env s history.ticks).filter fun t => minuteOf t = m).length = 0) := by
  have hrested : Rested env s history.ticks m ↔
      ∃ t ∈ history.ticks.filter (fun t => minuteOf t = m),
        rested t (afterTicks env s (history.ticks.filter fun t => minuteOf t < m)).lastRunAt = true := by
    simp only [Rested, List.mem_filter, decide_eq_true_eq, and_assoc]
  have hsplit := ticks_split history.sorted m
  have hbefore : ∀ t ∈ history.ticks.filter (fun t => minuteOf t < m), minuteOf t < m :=
    fun t ht => of_decide_eq_true (List.mem_filter.mp ht).2
  have hwithin : ∀ t ∈ history.ticks.filter (fun t => minuteOf t = m), minuteOf t = m :=
    fun t ht => of_decide_eq_true (List.mem_filter.mp ht).2
  have hafter : ∀ t ∈ history.ticks.filter (fun t => m < minuteOf t), m < minuteOf t :=
    fun t ht => of_decide_eq_true (List.mem_filter.mp ht).2
  rw [hrested]
  generalize history.ticks.filter (fun t => minuteOf t < m) = before at hsplit hbefore ⊢
  generalize history.ticks.filter (fun t => minuteOf t = m) = within at hsplit hwithin ⊢
  generalize history.ticks.filter (fun t => m < minuteOf t) = later at hsplit hafter
  have hlive := h.live_after before
  -- only the runs at the ticks of the minute are in the minute
  have hruns : (firings env s history.ticks).filter (fun t => minuteOf t = m) = firings env (afterTicks env s before) within := by
    rw [hsplit, List.append_assoc, h.firings_append, hlive.firings_append, List.filter_append, List.filter_append,
      List.filter_eq_nil_iff.mpr fun t ht => by simp [(hbefore t (h.mem_of_mem_firings ht)).ne],
      List.filter_eq_self.mpr fun t ht => decide_eq_true (hwithin t (hlive.mem_of_mem_firings ht)),
      List.filter_eq_nil_iff.mpr fun t ht => by simp [(hafter t ((hlive.live_after within).mem_of_mem_firings ht)).ne'],
      List.nil_append, List.append_nil]
  rw [hruns]
  constructor
  · intro hboth
    exact hlive.firings_rested hwithin hboth.1 hboth.2
  · intro hnot
    by_cases hnamed : Named env c m
    · rw [hlive.firings_unrested fun t ht => Bool.eq_false_iff.mpr fun htrue => hnot ⟨hnamed, t, ht, htrue⟩]
      rfl
    · rw [hlive.firings_unnamed hwithin hnamed]
      rfl

/-- A schedule fires once in every minute that is due exactly if such a minute is named itself and has a tick
ten minutes after the last run. -/
theorem Live.fires_once_iff (h : Live env c s) (history : History) :
    FiresOnce env c history.ticks (firings env s history.ticks) ↔
      ∀ m, Ticked history.ticks m → Due env c history.ticks m → Named env c m ∧ Rested env s history.ticks m := by
  constructor
  · intro hfires m hticked hdue
    by_contra hcondition
    have hone := (hfires m hticked).1 hdue
    rw [(h.runs_in_minute history m).2 hcondition] at hone
    cases hone
  · intro hcondition m hticked
    refine ⟨fun hdue => (h.runs_in_minute history m).1 (hcondition m hticked hdue), fun hdue => ?_⟩
    exact (h.runs_in_minute history m).2 fun hnamed => hdue (.inl hnamed.1)

end

/-! ## A report every minute -/

/-- The expression of five asterisks, which names every minute. -/
def everyMinute : Crontab := ⟨fun _ => true, fun _ => true, fun _ => true, fun _ => true, fun _ => true⟩

/-- A plant whose parser knows asterisks, on the first of January 1970. -/
def starEnvironment : Environment where
  crontab
    | "*", "*", "*", "*", "*" => .ok everyMinute
    | _, _, _, _, _ => .error (.crash "ParseException")
  civil m := ⟨(m % 60).toNat, (m / 60 % 24).toNat, 1, 1, 4⟩
  plant := some 1

def energyEveryMinute : ReportSchedule := ⟨1, .energy, some .plant, none, .pdf, "* * * * *", true, none, none⟩

theorem parse_stars : parse starEnvironment "* * * * *" = .ok everyMinute := by
  have hfields : fields "* * * * *" = ["*", "*", "*", "*", "*"] := by decide +kernel
  rw [parse, hfields]
  rfl

theorem live_energyEveryMinute : Live starEnvironment everyMinute energyEveryMinute :=
  ⟨rfl, parse_stars, fun _ => ReportSchedule.request_eq_ok_iff.mpr rfl⟩

/-- The two first minutes of the day, with a tick in each. -/
def twoMinutes : History := ⟨[0, 60000000], by decide⟩

theorem fires_once_iff_in_two_minutes :
    FiresOnce starEnvironment everyMinute twoMinutes.ticks (firings starEnvironment energyEveryMinute twoMinutes.ticks) ↔
      ∀ m, Ticked twoMinutes.ticks m → Due starEnvironment everyMinute twoMinutes.ticks m →
        Named starEnvironment everyMinute m ∧ Rested starEnvironment energyEveryMinute twoMinutes.ticks m :=
  live_energyEveryMinute.fires_once_iff twoMinutes

/-- The second of two matching minutes goes without a report. -/
theorem second_minute_is_suppressed :
    ¬ FiresOnce starEnvironment everyMinute twoMinutes.ticks (firings starEnvironment energyEveryMinute twoMinutes.ticks) := by
  intro hfires
  have hone := (hfires 1 ⟨60000000, by decide, by decide⟩).1 (.inl rfl)
  have hruns : firings starEnvironment energyEveryMinute twoMinutes.ticks = [0] := by decide +kernel
  rw [hruns] at hone
  cases hone

end TwinVoice.Reports
