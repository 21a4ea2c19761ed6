import TwinVoice.Ingest.Buffers

/-! # The buffer lock

`_buffer_lock` is not re-entrant. The thread that handles messages holds it
while it tests whether the telemetry buffer is full, and a full buffer is
flushed right there: `_flush_buffer` then waits for the lock that its own
thread holds. While no message fills the buffer every other use of the lock
finds it free or another thread's. -/

namespace TwinVoice.Ingest.Buffers

open TwinVoice.Lib.Transition

section
variable {Row : Type} {n : Nat}

/-- Between `acquire` and the end of the block of `_flush_buffer`. -/
def Point.inside : Point → Bool
  | .copy _ | .clear _ | .release => true
  | .acquire | .insert _ => false

/-- The thread is in a `with self._buffer_lock` block. -/
def Pc.holds : Pc Row → Prop
  | .locked _ | .extended | .unlocking => True
  | .flush p nested _ => nested = true ∨ p.inside = true
  | .idle | .production _ | .energy _ | .telemetry _ => False

/-- The next instruction acquires the lock. -/
def Pc.acquires : Pc Row → Prop
  | .telemetry rows => rows ≠ []
  | .flush .acquire _ _ => True
  | _ => False

/-- The thread is about to acquire the lock that it holds. -/
def State.blocksItself (s : State Row n) (t : Fin n) : Prop :=
  (s.thread t).acquires ∧ s.lock = some t

/-- A flush inside the block has come no further than its first instruction. -/
def Pc.stuckIfNested (pc : Pc Row) : Prop := ∀ p taken, pc = .flush p true taken → p = .acquire

/-- The lock is the one thread's that is in such a block. -/
structure Disciplined (lock : Option (Fin n)) (thread : Fin n → Pc Row) : Prop where
  mutex : ∀ t, lock = some t ↔ (thread t).holds
  stuck : ∀ t, (thread t).stuckIfNested

namespace Disciplined
variable {lock : Option (Fin n)} {thread : Fin n → Pc Row} {t : Fin n} {pc : Pc Row}

theorem goto (h : Disciplined lock thread) (hholds : pc.holds ↔ (thread t).holds)
    (hstuck : pc.stuckIfNested) : Disciplined lock (Function.update thread t pc) := by
  refine ⟨fun t' => ?_, fun t' => ?_⟩
  · by_cases ht : t' = t
    · subst ht
      simp only [Function.update_self, hholds]
      exact h.mutex t'
    · simp only [Function.update_of_ne ht]
      exact h.mutex t'
  · by_cases ht : t' = t
    · subst ht
      simpa only [Function.update_self] using hstuck
    · simpa only [Function.update_of_ne ht] using h.stuck t'

theorem take (h : Disciplined lock thread) (hfree : lock = none) (hholds : pc.holds)
    (hstuck : pc.stuckIfNested) : Disciplined (some t) (Function.update thread t pc) := by
  refine ⟨fun t' => ?_, fun t' => ?_⟩
  · by_cases ht : t' = t
    · subst ht
      simp [hholds]
    · have hnot : ¬(thread t').holds := fun hh => by
        have := (h.mutex t').mpr hh
        rw [hfree] at this
        cases this
      simp [Function.update_of_ne ht, hnot, Ne.symm ht]
  · by_cases ht : t' = t
    · subst ht
      simpa only [Function.update_self] using hstuck
    · simpa only [Function.update_of_ne ht] using h.stuck t'

theorem drop (h : Disciplined lock thread) (hheld : (thread t).holds) (hholds : ¬pc.holds)
    (hstuck : pc.stuckIfNested) : Disciplined none (Function.update thread t pc) := by
  have hlock := (h.mutex t).mpr hheld
  refine ⟨fun t' => ?_, fun t' => ?_⟩
  · by_cases ht : t' = t
    · subst ht
      simp [hholds]
    · have hnot : ¬(thread t').holds := fun hh => by
        have := (h.mutex t').mpr hh
        rw [hlock] at this
        exact ht (Option.some.inj this).symm
      simp [Function.update_of_ne ht, hnot]
  · by_cases ht : t' = t
    · subst ht
      simpa only [Function.update_self] using hstuck
    · simpa only [Function.update_of_ne ht] using h.stuck t'

end Disciplined

theorem disciplined_start :
    Disciplined (start : State Row n).lock (start : State Row n).thread :=
  ⟨fun t => by simp [start, Pc.holds], fun t p taken h => by cases h⟩

theorem Pc.stuckIfNested_after (p : Point) (taken : Kind → List Row) :
    (Pc.after p false taken).stuckIfNested := by
  intro q taken' h
  unfold Pc.after at h
  cases hp : p.next with
  | none =>
    rw [hp] at h
    cases h
  | some p' =>
    rw [hp] at h
    cases h

theorem Pc.holds_after_acquire (taken : Kind → List Row) : (Pc.after .acquire false taken).holds :=
  .inr rfl

theorem Pc.holds_after_copy (k : Kind) (taken : Kind → List Row) :
    (Pc.after (.copy k) false taken).holds := by
  cases k <;> exact .inr rfl

theorem Pc.holds_after_clear (k : Kind) (taken : Kind → List Row) :
    (Pc.after (.clear k) false taken).holds := by
  cases k <;> exact .inr rfl

theorem Pc.not_holds_after_release (taken : Kind → List Row) :
    ¬(Pc.after .release false taken).holds := by
  simp [Pc.after, Point.next, Pc.holds, Point.inside]

theorem Pc.not_holds_after_insert (k : Kind) (taken : Kind → List Row) :
    ¬(Pc.after (.insert k) false taken).holds := by
  cases k <;> simp [Pc.after, Point.next, Pc.holds, Point.inside, Pc.returned]

/-- A flush that takes a step was not called from the block. -/
theorem Disciplined.not_nested {takes : Kind → List Row → Row → Bool} {s u : State Row n} {t : Fin n}
    {works nested : Bool} {p : Point} {taken : Kind → List Row} (h : Disciplined s.lock s.thread)
    (hpc : s.thread t = .flush p nested taken) (hstep : Flushes takes s t works nested taken p u) :
    nested = false := by
  cases nested with
  | false => rfl
  | true =>
    have hlock : s.lock = some t := (h.mutex t).mpr (by rw [hpc]; exact .inl rfl)
    obtain rfl := h.stuck t p taken hpc
    cases hstep with
    | acquire hfree =>
      rw [hlock] at hfree
      cases hfree

theorem Disciplined.flushes {takes : Kind → List Row → Row → Bool} {s u : State Row n} {t : Fin n}
    {works nested : Bool} {p : Point} {taken : Kind → List Row} (h : Disciplined s.lock s.thread)
    (hpc : s.thread t = .flush p nested taken) (hstep : Flushes takes s t works nested taken p u) :
    Disciplined u.lock u.thread := by
  obtain rfl := h.not_nested hpc hstep
  cases hstep with
  | acquire hfree => exact h.take hfree (Pc.holds_after_acquire _) (Pc.stuckIfNested_after _ _)
  | @copy k =>
    have hheld : (s.thread t).holds := by rw [hpc]; exact .inr rfl
    exact h.goto (iff_of_true (Pc.holds_after_copy k _) hheld) (Pc.stuckIfNested_after _ _)
  | @clear k =>
    have hheld : (s.thread t).holds := by rw [hpc]; exact .inr rfl
    exact h.goto (iff_of_true (Pc.holds_after_clear k _) hheld) (Pc.stuckIfNested_after _ _)
  | nothing _ =>
    have hheld : (s.thread t).holds := by rw [hpc]; exact .inr rfl
    exact h.drop hheld (fun hh => hh) (fun p taken hflush => by cases hflush)
  | release =>
    have hheld : (s.thread t).holds := by rw [hpc]; exact .inr rfl
    exact h.drop hheld (Pc.not_holds_after_release _) (Pc.stuckIfNested_after _ _)
  | @insert k =>
    have hnot : ¬(s.thread t).holds := by
      rw [hpc]
      simp [Pc.holds, Point.inside]
    exact h.goto (iff_of_false (Pc.not_holds_after_insert k _) hnot) (Pc.stuckIfNested_after _ _)

theorem Disciplined.step {takes : Kind → List Row → Row → Bool} {s u : State Row n} {e : Event Row n}
    (h : Disciplined s.lock s.thread) (hstep : Steps takes s e u) : Disciplined u.lock u.thread := by
  have hnone : ∀ pc : Pc Row, (∀ p taken, pc ≠ .flush p true taken) → pc.stuckIfNested :=
    fun pc hne p taken hflush => absurd hflush (hne p taken)
  cases hstep with
  | message hpc => exact h.goto (by rw [hpc]; rfl) (hnone _ (by simp))
  | flush hpc =>
    refine h.goto ?_ (hnone _ (by simp))
    rw [hpc]
    simp [Pc.holds, Point.inside]
  | production hpc => exact h.goto (by rw [hpc]; rfl) (hnone _ (by simp))
  | energy hpc => exact h.goto (by rw [hpc]; rfl) (hnone _ (by simp))
  | noTelemetry hpc => exact h.goto (by rw [hpc]; rfl) (hnone _ (by simp))
  | lock _ hfree => exact h.take hfree trivial (hnone _ (by simp))
  | extend hpc => exact h.goto (by rw [hpc]; rfl) (hnone _ (by simp))
  | full hpc _ =>
    refine h.goto ?_ ?_
    · rw [hpc]
      simp [Pc.holds]
    · intro p taken hflush
      cases hflush
      rfl
  | notFull hpc _ => exact h.goto (by rw [hpc]; rfl) (hnone _ (by simp))
  | unlock hpc => exact h.drop (by rw [hpc]; trivial) (fun hh => hh) (hnone _ (by simp))
  | flushing hpc hflush => exact h.flushes hpc hflush

/-! ## Messages that do not fill the buffer -/

/-- The telemetry rows that the thread is about to buffer leave the buffer short of a batch. -/
def Pc.fits (buffered : Nat) : Pc Row → Prop
  | .locked rows => buffered + rows.length < batchSize
  | _ => True

instance (buffered : Nat) : ∀ pc : Pc Row, Decidable (pc.fits buffered)
  | .locked _ => inferInstanceAs (Decidable (_ < _))
  | .idle | .production _ | .energy _ | .telemetry _ | .extended | .unlocking | .flush .. => .isTrue trivial

def Below (s : State Row n) : Event Row n → Prop
  | .run t _ => (s.thread t).fits (s.buffer .telemetry).length
  | _ => True

instance (s : State Row n) : ∀ e, Decidable (Below s e)
  | .run .. => inferInstanceAs (Decidable (Pc.fits _ _))
  | .message .. | .flush _ => .isTrue trivial

/-- The thread that has extended the buffer finds it short of a batch, and no
flush runs inside the block. -/
structure Short (s : State Row n) : Prop where
  disciplined : Disciplined s.lock s.thread
  short : ∀ t, s.thread t = .extended → (s.buffer .telemetry).length < batchSize
  unnested : ∀ t p taken, s.thread t ≠ .flush p true taken

theorem Disciplined.same {lock : Option (Fin n)} {thread : Fin n → Pc Row} (h : Disciplined lock thread)
    {t t' : Fin n} (ht : (thread t).holds) (ht' : (thread t').holds) : t = t' :=
  Option.some.inj (((h.mutex t).mpr ht).symm.trans ((h.mutex t').mpr ht'))

theorem Short.goto {s u : State Row n} {t : Fin n} {pc : Pc Row} (h : Short s)
    (hdisciplined : Disciplined u.lock u.thread) (hthread : u.thread = Function.update s.thread t pc)
    (hshort : pc = .extended → (u.buffer .telemetry).length < batchSize)
    (hnested : ∀ p taken, pc ≠ .flush p true taken)
    (hbuffer : u.buffer .telemetry = s.buffer .telemetry ∨ (s.thread t).holds) : Short u := by
  refine ⟨hdisciplined, fun t' ht' => ?_, fun t' p taken ht' => ?_⟩
  · by_cases htt : t' = t
    · subst htt
      rw [hthread, Function.update_self] at ht'
      exact hshort ht'
    · rw [hthread, Function.update_of_ne htt] at ht'
      rcases hbuffer with hsame | hheld
      · rw [hsame]
        exact h.short t' ht'
      · have hheld' : (s.thread t').holds := by rw [ht']; trivial
        exact absurd (h.disciplined.same hheld' hheld) htt
  · by_cases htt : t' = t
    · subst htt
      rw [hthread, Function.update_self] at ht'
      exact hnested p taken ht'
    · rw [hthread, Function.update_of_ne htt] at ht'
      exact h.unnested t' p taken ht'

theorem Pc.after_ne_extended (p : Point) (taken : Kind → List Row) : Pc.after p false taken ≠ .extended := by
  unfold Pc.after
  cases p.next <;> simp [Pc.returned]

theorem Pc.after_ne_nested (p : Point) (taken : Kind → List Row) (q : Point) (taken' : Kind → List Row) :
    Pc.after p false taken ≠ .flush q true taken' := by
  unfold Pc.after
  cases p.next <;> simp [Pc.returned]

section
variable {takes : Kind → List Row → Row → Bool} {s u : State Row n}

theorem Short.flushes {t : Fin n} {works nested : Bool} {p : Point} {taken : Kind → List Row}
    (h : Short s) (hpc : s.thread t = .flush p nested taken)
    (hstep : Flushes takes s t works nested taken p u) : Short u := by
  have hdisciplined := h.disciplined.flushes hpc hstep
  obtain rfl := h.disciplined.not_nested hpc hstep
  have hextended (q : Point) (taken' : Kind → List Row) (hpc' : Pc.after q false taken' = .extended) :
      (u.buffer .telemetry).length < batchSize := absurd hpc' (Pc.after_ne_extended q taken')
  cases hstep with
  | @clear k =>
    have hheld : (s.thread t).holds := by rw [hpc]; exact .inr rfl
    exact h.goto hdisciplined rfl (hextended _ _) (Pc.after_ne_nested _ _) (.inr hheld)
  | nothing _ =>
    exact h.goto hdisciplined rfl (fun hpc' => by cases hpc') (fun _ _ => by simp [Pc.returned]) (.inl rfl)
  | acquire _ => exact h.goto hdisciplined rfl (hextended _ _) (Pc.after_ne_nested _ _) (.inl rfl)
  | copy => exact h.goto hdisciplined rfl (hextended _ _) (Pc.after_ne_nested _ _) (.inl rfl)
  | release => exact h.goto hdisciplined rfl (hextended _ _) (Pc.after_ne_nested _ _) (.inl rfl)
  | insert => exact h.goto hdisciplined rfl (hextended _ _) (Pc.after_ne_nested _ _) (.inl rfl)

theorem Short.step {e : Event Row n} (h : Short s) (hbelow : Below s e) (hstep : Steps takes s e u) :
    Short u := by
  have hdisciplined := h.disciplined.step hstep
  cases hstep with
  | @extend t works rows hpc =>
    refine h.goto hdisciplined rfl (fun _ => ?_) (by simp) (.inr (by rw [hpc]; trivial))
    have hfits : (s.thread t).fits (s.buffer .telemetry).length := hbelow
    rw [hpc] at hfits
    simpa [State.goto, State.append, Pc.fits] using hfits
  | full hpc hfull => exact absurd (h.short _ hpc) (Nat.not_lt.mpr hfull)
  | production hpc =>
    exact h.goto hdisciplined rfl (by simp) (by simp) (.inl (by simp [State.goto, State.append]))
  | energy hpc =>
    exact h.goto hdisciplined rfl (by simp) (by simp) (.inl (by simp [State.goto, State.append]))
  | flushing hpc hflush => exact h.flushes hpc hflush
  | message | flush | noTelemetry | lock | notFull | unlock =>
    exact h.goto hdisciplined rfl (by simp) (by simp) (.inl rfl)

theorem Short.not_blocksItself (h : Short s) (t : Fin n) : ¬s.blocksItself t := by
  rintro ⟨hacquires, hlock⟩
  have hheld := (h.disciplined.mutex t).mp hlock
  cases hpc : s.thread t with
  | telemetry rows =>
    rw [hpc] at hheld
    exact hheld
  | flush p nested taken =>
    rw [hpc] at hheld hacquires
    cases p with
    | acquire =>
      cases nested with
      | false => simp [Pc.holds, Point.inside] at hheld
      | true => exact h.unnested t _ _ hpc
    | _ => exact hacquires
  | _ =>
    rw [hpc] at hacquires
    exact hacquires

end

/-- In every run in which no message brings the telemetry buffer up to a batch,
no thread ever comes to acquire the lock while it holds it. -/
theorem lock_never_reacquired (takes : Kind → List Row → Row → Bool) {es : List (Event Row n)}
    {s : State Row n} (hrun : Run (Guarded (Fires (step takes)) Below) start es s) (t : Fin n) :
    ¬s.blocksItself t := by
  have hshort : Short s := by
    refine hrun.guarded ⟨disciplined_start, by simp [start], by simp [start]⟩ ?_
    intro r e u hr hbelow hstep
    exact hr.step hbelow (steps_of_step takes hstep)
  exact hshort.not_blocksItself t

/-- A thread processes a message on its own, up to the `extend`. -/
def receives (t : Fin n) (m : Message Row) : List (Event Row n) :=
  [.message t m, .run t true, .run t true, .run t true]

end

/-- Two rows reach an empty buffer. -/
theorem lock_never_reacquired_two_rows :
    ∃ s, Run (Guarded (Fires (step fun _ _ _ => true)) Below) (start : State Nat 2)
      (receives 0 ⟨none, none, [1, 2]⟩ ++ [.run 0 true, .run 0 true]) s ∧ ¬s.blocksItself 0 := by
  have hfires : (replay (guarded (step fun _ _ _ => true) Below) (start : State Nat 2)
      (receives 0 ⟨none, none, [1, 2]⟩ ++ [.run 0 true, .run 0 true])).isSome := by decide
  obtain ⟨s, hs⟩ := Option.isSome_iff_exists.mp hfires
  exact ⟨s, run_of_guarded hs, lock_never_reacquired _ (run_of_guarded hs) 0⟩

/-! ## The condition is exact -/

section
variable {Row : Type} {n : Nat} (takes : Kind → List Row → Row → Bool)

/-- A message that fills the buffer blocks the thread at its own next instruction but one. -/
theorem full_batch_blocks {es : List (Event Row n)} {s : State Row n} {t : Fin n} {rows : List Row}
    (hrun : Run (Fires (step takes)) start es s) (hpc : s.thread t = .locked rows)
    (hfull : batchSize ≤ (s.buffer .telemetry).length + rows.length) :
    ∃ u, Run (Fires (step takes)) s [.run t true, .run t true] u ∧ u.blocksItself t := by
  have hdisciplined : Disciplined s.lock s.thread := by
    refine hrun.invariant (fun _ r => Disciplined r.lock r.thread) disciplined_start ?_
    intro _ r e u hr hstep
    exact hr.step (steps_of_step takes hstep)
  have hlock : s.lock = some t := (hdisciplined.mutex t).mpr (by rw [hpc]; trivial)
  let r := (s.append .telemetry rows).goto t .extended
  have hextend : step takes s (.run t true) = some r := by simp only [step, hpc, r]
  have hextended : r.thread t = .extended := by simp [r, State.goto]
  have hlength : batchSize ≤ (r.buffer .telemetry).length := by
    simpa [r, State.goto, State.append] using hfull
  have hflush : step takes r (.run t true) = some (r.goto t (.flush .acquire true fun _ => [])) := by
    simp only [step, hextended, if_pos hlength]
  refine ⟨_, Run.cons hextend (Run.cons hflush .nil), ?_, hlock⟩
  simp [State.goto, Pc.acquires]

/-- The thread that takes part in an event. -/
def Event.actor : Event Row n → Fin n
  | .message t _ | .flush t | .run t _ => t

/-- A step changes no other thread, and frees the lock only in the thread that holds it. -/
theorem Steps.frame {s u : State Row n} {e : Event Row n} (hdisciplined : Disciplined s.lock s.thread)
    (hstep : Steps takes s e u) : (∀ t, t ≠ e.actor → u.thread t = s.thread t) ∧
      (u.lock = s.lock ∨ s.lock = none ∨ s.lock = some e.actor) := by
  have hother : ∀ (r : State Row n) (t' : Fin n) (pc : Pc Row), ∀ t, t ≠ t' →
      (r.goto t' pc).thread t = r.thread t := fun r t' pc t ht => Function.update_of_ne ht ..
  cases hstep with
  | lock _ hfree => exact ⟨hother _ _ _, .inr (.inl hfree)⟩
  | @unlock t _ hpc => exact ⟨hother _ _ _, .inr (.inr ((hdisciplined.mutex t).mpr (by rw [hpc]; trivial)))⟩
  | @flushing t _ p nested taken _ hpc hflush =>
    have hheld : p.inside = true → s.lock = some t := fun hinside =>
      (hdisciplined.mutex t).mpr (by rw [hpc]; exact .inr hinside)
    cases hflush with
    | acquire hfree => exact ⟨hother _ _ _, .inr (.inl hfree)⟩
    | nothing | release => exact ⟨hother _ _ _, .inr (.inr (hheld rfl))⟩
    | copy | clear | insert => exact ⟨hother _ _ _, .inl rfl⟩
  | message | flush | production | energy | noTelemetry | extend | full | notFull =>
    exact ⟨hother _ _ _, .inl rfl⟩

/-- A thread that is to acquire the lock takes no step while the lock is held. -/
theorem Steps.ne_actor {s u : State Row n} {e : Event Row n} {t t' : Fin n} (hstep : Steps takes s e u)
    (hacquires : (s.thread t).acquires) (hlock : s.lock = some t') : t ≠ e.actor := by
  rintro rfl
  cases hstep with
  | lock _ hfree =>
    rw [hlock] at hfree
    cases hfree
  | flushing hpc hflush =>
    cases hflush with
    | acquire hfree =>
      rw [hlock] at hfree
      cases hfree
    | _ =>
      simp only [Event.actor, hpc] at hacquires
      exact hacquires
  | message hpc | flush hpc | production hpc | energy hpc | extend hpc | full hpc | notFull hpc
  | unlock hpc =>
    simp only [Event.actor, hpc] at hacquires
    exact hacquires
  | noTelemetry hpc =>
    simp only [Event.actor, hpc] at hacquires
    exact hacquires rfl

/-- A thread that blocks itself stays blocked, whatever the others do. -/
theorem blocked_for_good {s u : State Row n} {t : Fin n} {es : List (Event Row n)}
    (hdisciplined : Disciplined s.lock s.thread) (hblocked : s.blocksItself t)
    (hrun : Run (Fires (step takes)) s es u) : u.blocksItself t := by
  suffices h : Disciplined u.lock u.thread ∧ u.blocksItself t from h.2
  refine hrun.invariant (fun _ r => Disciplined r.lock r.thread ∧ r.blocksItself t)
    ⟨hdisciplined, hblocked⟩ ?_
  rintro _ r e v ⟨hr, hacquires, hlock⟩ hfires
  have hstep := steps_of_step takes hfires
  have hne := hstep.ne_actor takes hacquires hlock
  obtain ⟨hthread, hfrees⟩ := hstep.frame takes hr
  refine ⟨hr.step hstep, ?_, ?_⟩
  · rw [hthread t hne]
    exact hacquires
  · rcases hfrees with hsame | hfree | hholder
    · rw [hsame, hlock]
    · rw [hlock] at hfree
      cases hfree
    · rw [hlock] at hholder
      exact absurd (Option.some.inj hholder) hne

end

/-- A payload of five hundred metrics. -/
theorem five_hundred_rows_block : ¬∀ (es : List (Event Nat 2)) (s : State Nat 2),
    Run (Fires (step fun _ _ _ => true)) start es s → ∀ t, ¬s.blocksItself t := by
  intro h
  let rows : List Nat := List.replicate batchSize 0
  obtain ⟨s, hs, hpc⟩ : ∃ s, replay (step fun _ _ _ => true) (start : State Nat 2)
      (receives 0 ⟨none, none, rows⟩) = some s ∧ s.thread 0 = .locked rows := ⟨_, rfl, rfl⟩
  obtain ⟨u, hu, hblocked⟩ := full_batch_blocks _ (run_of_replay hs) hpc (by simp [rows])
  exact h _ u ((run_of_replay hs).append hu) 0 hblocked

end TwinVoice.Ingest.Buffers
