import TwinVoice.Ingest.Locking
import Mathlib.Algebra.BigOperators.Fin
import Mathlib.Algebra.Order.BigOperators.Group.Finset

/-! # Where the rows go

Every row that is appended is in a buffer, in a flush that has still to insert
it, in its table, or refused by its table: unless a batch is rolled back with
rows that the table would have taken, or a row is appended to a buffer between
its copy and its clear. The lock keeps telemetry rows from the latter; energy
and production rows are appended without it. -/

namespace TwinVoice.Ingest.Buffers

open TwinVoice.Lib.Transition

section
variable {Row : Type} {n : Nat}

/-- The order in which a flush goes through the buffers. -/
def Kind.rank : Kind → Nat
  | .telemetry => 0
  | .energy => 1
  | .production => 2

/-- The buffer has been copied and is not yet cleared. -/
def Point.copied (k : Kind) : Point → Bool
  | .copy k' => k.rank < k'.rank
  | .clear k' => k'.rank ≤ k.rank
  | .acquire | .release | .insert _ => false

/-- The buffer has been cleared and its copy is not yet inserted. -/
def Point.pending (k : Kind) : Point → Bool
  | .clear k' => k.rank < k'.rank
  | .release => true
  | .insert k' => k'.rank ≤ k.rank
  | .acquire | .copy _ => false

def Pc.copied (k : Kind) : Pc Row → Bool
  | .flush p _ _ => p.copied k
  | _ => false

/-- The rows of the kind that only this thread's local variable still holds. -/
def Pc.flight (k : Kind) : Pc Row → List Row
  | .flush p _ taken => if p.pending k then taken k else []
  | _ => []

/-- Each row is as often in its table, in its buffer, in a flush and refused as it was appended. -/
def Accounted [DecidableEq Row] (s : State Row n) : Prop :=
  ∀ k r, (s.appended k).count r = (s.stored k).count r + (s.buffer k).count r +
    ∑ t, ((s.thread t).flight k).count r + (s.refused k).count r

/-- A batch is committed or holds no row that the table would take, and an
energy or production row is appended while no flush is between its copy and
its clear of that buffer. -/
def Pc.careful (takes : Kind → List Row → Row → Bool) (s : State Row n) (works : Bool) : Pc Row → Prop
  | .production m => m.production.isSome → ∀ t, (s.thread t).copied .production = false
  | .energy m => m.energy.isSome → ∀ t, (s.thread t).copied .energy = false
  | .flush (.insert k) _ taken =>
    (works ∧ (sift (takes k) (s.stored k) (taken k)).2 = []) ∨ (sift (takes k) (s.stored k) (taken k)).1 = []
  | _ => True

def Careful (takes : Kind → List Row → Row → Bool) (s : State Row n) : Event Row n → Prop
  | .run t works => (s.thread t).careful takes s works
  | _ => True

instance [DecidableEq Row] (takes : Kind → List Row → Row → Bool) (s : State Row n) (works : Bool) :
    ∀ pc : Pc Row, Decidable (pc.careful takes s works)
  | .production _ | .energy _ => inferInstanceAs (Decidable (_ → _))
  | .flush (.insert _) _ _ => inferInstanceAs (Decidable (_ ∨ _))
  | .flush .acquire _ _ | .flush (.copy _) _ _ | .flush (.clear _) _ _ | .flush .release _ _
  | .idle | .telemetry _ | .locked _ | .extended | .unlocking => .isTrue trivial

instance [DecidableEq Row] (takes : Kind → List Row → Row → Bool) (s : State Row n) :
    ∀ e, Decidable (Careful takes s e)
  | .run .. => inferInstanceAs (Decidable (Pc.careful _ _ _ _))
  | .message .. | .flush _ => .isTrue trivial

/-! ## One instruction of a flush -/

/-- What the instruction after this one has copied and has pending. -/
theorem after_copied (p : Point) (taken : Kind → List Row) (k : Kind) :
    (Pc.after p false taken).copied k =
      ((p.copied k || decide (p = .copy k)) && decide (p ≠ .clear k)) := by
  cases p with
  | copy k' => cases k' <;> cases k <;> rfl
  | clear k' => cases k' <;> cases k <;> rfl
  | insert k' => cases k' <;> cases k <;> rfl
  | acquire => cases k <;> rfl
  | release => cases k <;> rfl

theorem after_flight (p : Point) (taken : Kind → List Row) (k : Kind) :
    (Pc.after p false taken).flight k =
      if (p.pending k ∨ p = .clear k) ∧ p ≠ .insert k then taken k else [] := by
  cases p with
  | copy k' => cases k' <;> cases k <;> rfl
  | clear k' => cases k' <;> cases k <;> rfl
  | insert k' => cases k' <;> cases k <;> rfl
  | acquire => cases k <;> rfl
  | release => cases k <;> rfl

theorem taken_of_after {p q : Point} {nested nested' : Bool} {taken taken' : Kind → List Row}
    (h : Pc.after p nested taken = .flush q nested' taken') : taken' = taken := by
  unfold Pc.after at h
  cases hp : p.next with
  | none =>
    rw [hp] at h
    cases nested <;> cases h
  | some p' =>
    rw [hp] at h
    cases h
    rfl

theorem Point.inside_of_copied {p : Point} {k : Kind} (h : p.copied k) : p.inside := by
  cases p <;> first | rfl | cases h

/-- Each row of a batch is taken or refused. -/
theorem count_sift [DecidableEq Row] (takes : List Row → Row → Bool) (stored rows : List Row) (r : Row) :
    rows.count r = (sift takes stored rows).1.count r + (sift takes stored rows).2.count r := by
  induction rows generalizing stored with
  | nil => rfl
  | cons x rows ih =>
    unfold sift
    split
    · rw [List.count_cons, ih (stored ++ [x])]
      simp only [List.count_cons]
      omega
    · rw [List.count_cons, ih stored]
      simp only [List.count_cons]
      omega

/-- A sum over the threads changes by what the one thread's summand does. -/
theorem sum_goto (f : Pc Row → Nat) (thread : Fin n → Pc Row) (t : Fin n) (pc : Pc Row) :
    ∑ t', f (Function.update thread t pc t') + f (thread t) = ∑ t', f (thread t') + f pc := by
  rw [← Finset.add_sum_erase _ _ (Finset.mem_univ t),
    ← Finset.add_sum_erase _ (fun t' => f (thread t')) (Finset.mem_univ t)]
  have hrest : ∑ t' ∈ Finset.univ.erase t, f (Function.update thread t pc t') =
      ∑ t' ∈ Finset.univ.erase t, f (thread t') := by
    refine Finset.sum_congr rfl fun t' ht' => ?_
    rw [Function.update_of_ne (Finset.ne_of_mem_erase ht')]
  rw [hrest, Function.update_self]
  omega

/-! ## What every careful step keeps -/

/-- A copy that is not yet followed by its clear is what the buffer holds. -/
def Windowed (s : State Row n) : Prop :=
  ∀ t p nested taken k, s.thread t = .flush p nested taken → p.copied k → taken k = s.buffer k

theorem Windowed.goto {s u : State Row n} {t : Fin n} {pc : Pc Row} (h : Windowed s)
    (hthread : u.thread = Function.update s.thread t pc)
    (hnew : ∀ p nested taken k, pc = .flush p nested taken → p.copied k → taken k = u.buffer k)
    (hbuffer : ∀ t' k, t' ≠ t → (s.thread t').copied k → u.buffer k = s.buffer k) : Windowed u := by
  intro t' p nested taken k hpc hcopied
  rw [hthread] at hpc
  by_cases ht : t' = t
  · subst ht
    rw [Function.update_self] at hpc
    exact hnew p nested taken k hpc hcopied
  · rw [Function.update_of_ne ht] at hpc
    rw [hbuffer t' k ht (by rw [hpc]; exact hcopied)]
    exact h t' p nested taken k hpc hcopied

theorem Accounted.goto [DecidableEq Row] {s u : State Row n} {t : Fin n} {pc : Pc Row} (h : Accounted s)
    (hthread : u.thread = Function.update s.thread t pc)
    (hcount : ∀ k r, (u.appended k).count r + (s.stored k).count r + (s.buffer k).count r +
      ((s.thread t).flight k).count r + (s.refused k).count r = (s.appended k).count r +
        (u.stored k).count r + (u.buffer k).count r + (pc.flight k).count r + (u.refused k).count r) :
    Accounted u := by
  intro k r
  have hsum := sum_goto (fun pc => (pc.flight k).count r) s.thread t pc
  have hbefore := h k r
  have hstep := hcount k r
  rw [hthread]
  omega

section
variable {takes : Kind → List Row → Row → Bool} {s u : State Row n} {t : Fin n}

theorem Disciplined.not_copied (h : Disciplined s.lock s.thread) (hheld : (s.thread t).holds) {t' : Fin n}
    (hne : t' ≠ t) (k : Kind) : (s.thread t').copied k = false := by
  cases hpc : s.thread t' with
  | flush p nested taken =>
    by_contra hcopied
    have hinside := Point.inside_of_copied (Bool.not_eq_false _ ▸ hcopied : p.copied k = true)
    exact hne (h.same (by rw [hpc]; exact .inr hinside) hheld)
  | _ => rfl

/-- Rows are appended to a buffer that no flush has copied and not cleared. -/
theorem Windowed.append {k : Kind} {rows : List Row} {pc : Pc Row} (h : Windowed s)
    (hclear : rows ≠ [] → ∀ t', t' ≠ t → (s.thread t').copied k = false)
    (hpc : ∀ p nested taken, pc ≠ .flush p nested taken) : Windowed ((s.append k rows).goto t pc) := by
  refine h.goto rfl (fun p nested taken k hflush => absurd hflush (hpc p nested taken)) ?_
  intro t' k' ht hcopied
  by_cases hk : k' = k
  · subst hk
    by_cases hrows : rows = []
    · simp [State.goto, State.append, hrows]
    · rw [hclear hrows t' ht] at hcopied
      cases hcopied
  · simp [State.goto, State.append, Function.update_of_ne hk]

theorem Accounted.append [DecidableEq Row] {k : Kind} {rows : List Row} {pc : Pc Row} (h : Accounted s)
    (hbefore : ∀ k, (s.thread t).flight k = []) (hafter : ∀ k, pc.flight k = []) :
    Accounted ((s.append k rows).goto t pc) := by
  refine h.goto rfl fun k' r => ?_
  by_cases hk : k' = k
  · subst hk
    simp only [State.goto, State.append, Function.update_self, List.count_append, hbefore, hafter]
    omega
  · simp only [State.goto, State.append, Function.update_of_ne hk, hbefore, hafter]

/-- After `k` was copied the copy is the buffer, for `k` as for those copied before. -/
theorem Windowed.copy {taken : Kind → List Row} {k : Kind} (h : Windowed s)
    (hpc : s.thread t = .flush (.copy k) false taken) :
    Windowed (s.goto t (.after (.copy k) false (Function.update taken k (s.buffer k)))) := by
  refine h.goto rfl (fun p nested taken' k' hafter hcopied => ?_) (fun _ _ _ _ => rfl)
  have hnow : (Pc.after (.copy k) false (Function.update taken k (s.buffer k))).copied k' = true := by
    rw [hafter]
    exact hcopied
  rw [after_copied] at hnow
  rw [taken_of_after hafter]
  by_cases hk : k' = k
  · subst hk
    exact Function.update_self ..
  · rw [Function.update_of_ne hk]
    have hbefore : (Point.copy k).copied k' = true := by simpa [Ne.symm hk] using hnow
    exact h t _ false taken k' hpc hbefore

/-- An instruction that copies nothing, and changes a buffer only if it clears it. -/
theorem Windowed.after {r : State Row n} {p : Point} {taken : Kind → List Row} (h : Windowed s)
    (hdisciplined : Disciplined s.lock s.thread) (hpc : s.thread t = .flush p false taken)
    (hcopy : ∀ k, p ≠ .copy k) (hthread : r.thread = s.thread)
    (hbuffer : ∀ k, p ≠ .clear k → r.buffer k = s.buffer k) :
    Windowed (r.goto t (.after p false taken)) := by
  refine h.goto (by rw [← hthread]; rfl) (fun q nested taken' k hafter hcopied => ?_) ?_
  · have hnow : (Pc.after p false taken).copied k = true := by
      rw [hafter]
      exact hcopied
    rw [after_copied] at hnow
    simp only [hcopy k, decide_false, Bool.or_false, Bool.and_eq_true, decide_eq_true_eq] at hnow
    rw [taken_of_after hafter]
    exact (h t p false taken k hpc hnow.1).trans (hbuffer k hnow.2).symm
  · intro t' k ht hcopied
    refine hbuffer k fun hclear => ?_
    have hheld : (s.thread t).holds := by
      rw [hpc, hclear]
      exact .inr rfl
    rw [hdisciplined.not_copied hheld ht k] at hcopied
    cases hcopied

theorem Windowed.flushes {works nested : Bool} {p : Point} {taken : Kind → List Row} (h : Windowed s)
    (hdisciplined : Disciplined s.lock s.thread) (hpc : s.thread t = .flush p nested taken)
    (hstep : Flushes takes s t works nested taken p u) : Windowed u := by
  obtain rfl := hdisciplined.not_nested hpc hstep
  cases hstep with
  | copy => exact h.copy hpc
  | @clear k =>
    refine h.after hdisciplined hpc (by simp) rfl fun k' hk => ?_
    exact Function.update_of_ne (fun he : k' = k => hk (he ▸ rfl)) ..
  | nothing _ => exact h.goto rfl (fun p _ _ _ hflush => by cases hflush) (fun _ _ _ _ => rfl)
  | acquire | release | insert => exact h.after hdisciplined hpc (by simp) rfl (fun _ _ => rfl)

/-- The copy of a buffer that is cleared holds what the buffer held. -/
theorem Accounted.clear [DecidableEq Row] {taken : Kind → List Row} {k : Kind} (h : Accounted s)
    (hwindow : Windowed s) (hpc : s.thread t = .flush (.clear k) false taken) :
    Accounted ({ s with buffer := Function.update s.buffer k [] }.goto t (.after (.clear k) false taken)) := by
  refine h.goto rfl fun k' r => ?_
  rw [hpc, after_flight]
  by_cases hk : k' = k
  · subst hk
    have hcopied : taken k' = s.buffer k' :=
      hwindow t _ false taken k' hpc (by simp [Point.copied])
    simp [State.goto, Pc.flight, Point.pending, hcopied]
  · simp [State.goto, Function.update_of_ne hk, Pc.flight, Ne.symm hk]

/-- A careful insert moves the batch to the table or to the refused rows. -/
theorem Accounted.insert [DecidableEq Row] {works : Bool} {taken : Kind → List Row} {k : Kind}
    (h : Accounted s) (hpc : s.thread t = .flush (.insert k) false taken)
    (hcareful : (s.thread t).careful takes s works) :
    Accounted ((s.insert takes k (taken k) works).goto t (.after (.insert k) false taken)) := by
  refine h.goto rfl fun k' r => ?_
  rw [hpc] at hcareful
  rw [hpc, after_flight]
  by_cases hk : k' = k
  · subst hk
    have hsift := count_sift (takes k') (s.stored k') (taken k') r
    by_cases hcommits : works = true ∧ (sift (takes k') (s.stored k') (taken k')).2 = []
    · simp [State.goto, State.insert, hcommits, Pc.flight, Point.pending]
      omega
    · have hnone := hcareful.resolve_left hcommits
      rw [hnone, List.count_nil, Nat.zero_add] at hsift
      simp [State.goto, State.insert, hcommits, Pc.flight, Point.pending, hsift]
      omega
  · obtain ⟨hstored, hrefused⟩ := s.insert_of_ne takes (taken k) works hk
    simp only [State.goto, hstored, hrefused]
    simp [State.insert, Pc.flight, Ne.symm hk]

theorem Accounted.flushes [DecidableEq Row] {works nested : Bool} {p : Point} {taken : Kind → List Row}
    (h : Accounted s) (hwindow : Windowed s) (hdisciplined : Disciplined s.lock s.thread)
    (hpc : s.thread t = .flush p nested taken) (hcareful : (s.thread t).careful takes s works)
    (hstep : Flushes takes s t works nested taken p u) : Accounted u := by
  obtain rfl := hdisciplined.not_nested hpc hstep
  cases hstep with
  | clear => exact h.clear hwindow hpc
  | insert => exact h.insert hpc hcareful
  | nothing hnone => exact h.goto rfl fun k r => by simp [hpc, State.goto, Pc.flight, Pc.returned, hnone]
  | acquire =>
    refine h.goto rfl fun k r => ?_
    rw [hpc, after_flight]
    simp [State.goto, Pc.flight, Point.pending]
  | copy =>
    refine h.goto rfl fun k r => ?_
    rw [hpc, after_flight]
    simp [State.goto, Pc.flight, Point.pending]
  | release =>
    refine h.goto rfl fun k r => ?_
    rw [hpc, after_flight]
    simp [State.goto, Pc.flight, Point.pending]

/-- The lock, the copies and the rows are as they should be. -/
structure Tidy [DecidableEq Row] (s : State Row n) : Prop where
  disciplined : Disciplined s.lock s.thread
  windowed : Windowed s
  accounted : Accounted s

theorem Tidy.step [DecidableEq Row] {e : Event Row n} (h : Tidy s) (hcareful : Careful takes s e)
    (hstep : Steps takes s e u) : Tidy u := by
  refine ⟨h.disciplined.step hstep, ?_, ?_⟩
  · cases hstep with
    | @production t works m hpc =>
      refine h.windowed.append (fun hrows t' _ => ?_) (by simp)
      have hclear : (s.thread t).careful takes s works := hcareful
      rw [hpc] at hclear
      exact hclear (by cases hm : m.production <;> simp_all) t'
    | @energy t works m hpc =>
      refine h.windowed.append (fun hrows t' _ => ?_) (by simp)
      have hclear : (s.thread t).careful takes s works := hcareful
      rw [hpc] at hclear
      exact hclear (by cases hm : m.energy <;> simp_all) t'
    | extend hpc =>
      refine h.windowed.append (fun _ t' ht => ?_) (by simp)
      exact h.disciplined.not_copied (by rw [hpc]; trivial) ht _
    | full | flush =>
      refine h.windowed.goto rfl (fun p _ _ _ hflush hcopied => ?_) (fun _ _ _ _ => rfl)
      cases hflush
      cases hcopied
    | flushing hpc hflush => exact h.windowed.flushes h.disciplined hpc hflush
    | message | noTelemetry | lock | notFull | unlock =>
      exact h.windowed.goto rfl (fun p _ _ _ hflush => by cases hflush) (fun _ _ _ _ => rfl)
  · cases hstep with
    | production hpc => exact h.accounted.append (by rw [hpc]; simp [Pc.flight]) (by simp [Pc.flight])
    | energy hpc => exact h.accounted.append (by rw [hpc]; simp [Pc.flight]) (by simp [Pc.flight])
    | extend hpc => exact h.accounted.append (by rw [hpc]; simp [Pc.flight]) (by simp [Pc.flight])
    | @flushing t works p nested taken _ hpc hflush =>
      exact h.accounted.flushes h.windowed h.disciplined hpc hcareful hflush
    | message hpc | noTelemetry hpc | lock hpc | notFull hpc | unlock hpc | full hpc | flush hpc =>
      exact h.accounted.goto rfl fun k r => by simp [hpc, State.goto, Pc.flight, Point.pending]

end

/-- In every careful run no row is lost: each is stored, buffered, in a flush
that has yet to insert it, or refused by its table; and once every thread is
idle no flush holds any. -/
theorem no_row_lost [DecidableEq Row] (takes : Kind → List Row → Row → Bool) {es : List (Event Row n)}
    {s : State Row n} (hrun : Run (Guarded (Fires (step takes)) (Careful takes)) start es s) :
    Accounted s ∧ ((∀ t, s.thread t = .idle) → ∀ k r, (s.appended k).count r =
      (s.stored k).count r + (s.buffer k).count r + (s.refused k).count r) := by
  have htidy : Tidy s := by
    refine hrun.guarded ⟨disciplined_start, ?_, ?_⟩ ?_
    · intro t p nested taken k hpc
      cases hpc
    · intro k r
      simp [start, Pc.flight]
    · intro r e u hr hcareful hstep
      exact hr.step hcareful (steps_of_step takes hstep)
  refine ⟨htidy.accounted, fun hidle k r => ?_⟩
  rw [htidy.accounted k r]
  simp [hidle, Pc.flight]

end

/-- A table that takes every row but the zero. -/
def positive (_ : Kind) (_ : List Nat) (r : Nat) : Bool := 0 < r

/-- A thread flushes on its own. -/
def flushes (t : Fin 2) (works : Bool) : List (Event Nat 2) := .flush t :: List.replicate 11 (.run t works)

/-- An energy row and two telemetry rows are flushed by the timer's thread. -/
theorem no_row_lost_flushed :
    ∃ s, Run (Guarded (Fires (step positive)) (Careful positive)) (start : State Nat 2)
      (receives 0 ⟨none, some 7, [1, 2]⟩ ++ [.run 0 true, .run 0 true, .run 0 true] ++ flushes 1 true) s ∧
      s.stored .energy = [7] ∧ Accounted s := by
  have hstored : (replay (guarded (step positive) (Careful positive)) (start : State Nat 2)
      (receives 0 ⟨none, some 7, [1, 2]⟩ ++ [.run 0 true, .run 0 true, .run 0 true] ++ flushes 1 true)).map
        (·.stored .energy) = some [7] := by decide
  obtain ⟨s, hs, henergy⟩ := Option.map_eq_some_iff.mp hstored
  exact ⟨s, run_of_guarded hs, henergy, (no_row_lost _ (run_of_guarded hs)).1⟩

/-- An energy row is appended after the copy: it is gone though the database
takes everything. A refused row takes another of its batch with it. -/
theorem rows_are_lost :
    (¬∀ (es : List (Event Nat 2)) (s : State Nat 2),
        Run (Fires (step fun _ _ _ => true)) start es s → Accounted s) ∧
      ¬∀ (es : List (Event Nat 2)) (s : State Nat 2),
        Run (Fires (step positive)) start es s → Accounted s := by
  refine ⟨fun h => ?_, fun h => ?_⟩
  · let race : List (Event Nat 2) :=
      [.message 0 ⟨none, some 7, []⟩, .run 0 true,
        .flush 1, .run 1 true, .run 1 true, .run 1 true, .run 1 true,
        .run 0 true,
        .run 1 true, .run 1 true, .run 1 true, .run 1 true]
    have hlost : (replay (step fun _ _ _ => true) (start : State Nat 2) race).map (fun s =>
        [s.appended .energy, s.stored .energy, s.buffer .energy, s.refused .energy,
          (s.thread 0).flight .energy, (s.thread 1).flight .energy]) =
        some [[7], [], [], [], [], []] := by decide +kernel
    obtain ⟨s, hs, hs'⟩ := Option.map_eq_some_iff.mp hlost
    have hclaimed := h race s (run_of_replay hs) .energy 7
    simp only [List.cons.injEq, and_true] at hs'
    simp [Fin.sum_univ_two, hs'] at hclaimed
  · let mixed : List (Event Nat 2) :=
      receives 0 ⟨none, none, [1, 0]⟩ ++ [.run 0 true, .run 0 true, .run 0 true] ++ flushes 1 true
    have hlost : (replay (step positive) (start : State Nat 2) mixed).map (fun s =>
        [s.appended .telemetry, s.stored .telemetry, s.buffer .telemetry, s.refused .telemetry,
          (s.thread 0).flight .telemetry, (s.thread 1).flight .telemetry]) =
        some [[1, 0], [], [], [0], [], []] := by decide +kernel
    obtain ⟨s, hs, hs'⟩ := Option.map_eq_some_iff.mp hlost
    have hclaimed := h mixed s (run_of_replay hs) .telemetry 1
    simp only [List.cons.injEq, and_true] at hs'
    simp [Fin.sum_univ_two, hs'] at hclaimed

/-! ## The condition is exact -/

section
variable {Row : Type} {n : Nat} [DecidableEq Row] {takes : Kind → List Row → Row → Bool}
  {s u : State Row n} {t : Fin n}

/-- How many instructions a flush has left before it releases the lock. -/
def Point.left : Point → Nat
  | .acquire => 7
  | .copy k => 6 - k.rank
  | .clear k => 3 - k.rank
  | .release | .insert _ => 0

theorem Point.next_of_copied {p : Point} {k : Kind} (h : p.copied k) (hne : p ≠ .clear k) :
    ∃ q, p.next = some q ∧ q.copied k ∧ q.left < p.left := by
  cases p with
  | copy k' => cases k' <;> cases k <;> first | exact ⟨_, rfl, rfl, by decide⟩ | cases h
  | clear k' =>
    cases k' <;> cases k <;> first | exact ⟨_, rfl, rfl, by decide⟩ | exact absurd rfl hne | cases h
  | acquire => cases h
  | release => cases h
  | insert k' => cases h

/-- A buffer that holds more than its copy loses the rest when it is cleared. -/
theorem clear_loses {k : Kind} {taken : Kind → List Row} {r : Row}
    (hpc : s.thread t = .flush (.clear k) false taken) (h : Accounted s)
    (hmore : (taken k).count r < (s.buffer k).count r) :
    ¬Accounted ({ s with buffer := Function.update s.buffer k [] }.goto t (.after (.clear k) false taken)) := by
  intro hafter
  have hsum := sum_goto (fun pc => (pc.flight k).count r) s.thread t (.after (.clear k) false taken)
  have hbefore := h k r
  have hthen := hafter k r
  simp only [State.goto, Function.update_self, List.count_nil] at hthen
  have hnone : (s.thread t).flight k = [] := by simp [hpc, Pc.flight, Point.pending]
  have htaken : (Pc.after (.clear k) false taken).flight k = taken k := by simp [after_flight]
  simp only [hnone, htaken, List.count_nil] at hsum
  omega

/-- A flush whose copy has fallen behind its buffer loses a row if it goes on alone. -/
theorem flush_loses {k : Kind} {r : Row} {p : Point} {taken : Kind → List Row}
    (hpc : s.thread t = .flush p false taken) (hcopied : p.copied k) (h : Accounted s)
    (hmore : (taken k).count r < (s.buffer k).count r) :
    ∃ es v, Run (Fires (step takes)) s es v ∧ ¬Accounted v := by
  induction hleft : p.left using Nat.strong_induction_on generalizing s p taken with
  | _ left ih =>
  subst hleft
  by_cases hclear : p = .clear k
  · subst hclear
    exact ⟨[.run t true], _, Run.cons (by simp only [Fires, step, hpc, runFlush]) .nil,
      clear_loses hpc h hmore⟩
  · obtain ⟨q, hnext, hq, hless⟩ := Point.next_of_copied hcopied hclear
    -- the next instruction is a copy or a clear of another buffer
    obtain ⟨v, taken', hstep, hv, htaken, hbuffer⟩ : ∃ v taken',
        Fires (step takes) s (.run t true) v ∧ v.thread t = .flush q false taken' ∧
          taken' k = taken k ∧ v.buffer k = s.buffer k := by
      cases p with
      | copy k' =>
        have hk : k ≠ k' := by
          rintro rfl
          simp [Point.copied] at hcopied
        let taken' := Function.update taken k' (s.buffer k')
        refine ⟨s.goto t (.after (.copy k') false taken'), taken', ?_, ?_, Function.update_of_ne hk .., rfl⟩
        · simp [Fires, step, hpc, runFlush, taken']
        · simp [State.goto, Pc.after, hnext]
      | clear k' =>
        have hk : k ≠ k' := fun he => hclear (he ▸ rfl)
        refine ⟨{ s with buffer := Function.update s.buffer k' [] }.goto t (.after (.clear k') false taken),
          taken, ?_, ?_, rfl, ?_⟩
        · simp only [Fires, step, hpc, runFlush]
        · simp [State.goto, Pc.after, hnext]
        · simp [State.goto, Function.update_of_ne hk]
      | acquire => cases hcopied
      | release => cases hcopied
      | insert k' => cases hcopied
    by_cases hsound : Accounted v
    · obtain ⟨es, w, hrun, hlost⟩ :=
        ih q.left hless hv hq hsound (by rw [htaken, hbuffer]; exact hmore) rfl
      exact ⟨_, w, Run.cons hstep hrun, hlost⟩
    · exact ⟨_, v, Run.cons hstep .nil, hsound⟩

/-- A row that is appended after the copy is lost. -/
theorem append_loses {k : Kind} {row : Row} {pc : Pc Row} {t' : Fin n} (h : Tidy s)
    (hbefore : ∀ k, (s.thread t).flight k = []) (hafter : ∀ k, pc.flight k = []) (hne : t' ≠ t)
    (hstep : step takes s (.run t true) = some ((s.append k [row]).goto t pc))
    (hcopied : (s.thread t').copied k) : ∃ es v, Run (Fires (step takes)) s es v ∧ ¬Accounted v := by
  cases hpc : s.thread t' with
  | flush p nested taken =>
    rw [hpc] at hcopied
    have hcopied : p.copied k := hcopied
    obtain rfl : nested = false := by
      cases nested with
      | false => rfl
      | true =>
        obtain rfl := h.disciplined.stuck t' p taken hpc
        cases hcopied
    have hpc' : ((s.append k [row]).goto t pc).thread t' = .flush p false taken := by
      simp [State.goto, State.append, Function.update_of_ne hne, hpc]
    have hmore : (taken k).count row < (((s.append k [row]).goto t pc).buffer k).count row := by
      rw [h.windowed t' p false taken k hpc hcopied]
      simp [State.goto, State.append]
    have hsound : Accounted ((s.append k [row]).goto t pc) := h.accounted.append hbefore hafter
    obtain ⟨es, v, hrun, hlost⟩ := flush_loses hpc' hcopied hsound hmore
    exact ⟨_, v, Run.cons hstep hrun, hlost⟩
  | _ =>
    rw [hpc] at hcopied
    cases hcopied

/-- A batch that is rolled back with a row that the table would have taken loses it. -/
theorem insert_loses {k : Kind} {works : Bool} {taken : Kind → List Row} (h : Accounted s)
    (hpc : s.thread t = .flush (.insert k) false taken)
    (hcareless : ¬(s.thread t).careful takes s works) :
    ¬Accounted ((s.insert takes k (taken k) works).goto t (.after (.insert k) false taken)) := by
  intro hafter
  rw [hpc] at hcareless
  obtain ⟨hrolled, htakes⟩ := not_or.mp hcareless
  obtain ⟨r, hr⟩ := List.exists_mem_of_ne_nil _ htakes
  have hsift := count_sift (takes k) (s.stored k) (taken k) r
  have hsome := List.count_pos_iff.mpr hr
  have hsum := sum_goto (fun pc => (pc.flight k).count r) s.thread t (.after (.insert k) false taken)
  have hbefore := h k r
  have hthen := hafter k r
  have hnone : (Pc.after (.insert k) false taken).flight k = [] := by simp [after_flight]
  have htaken : (s.thread t).flight k = taken k := by simp [hpc, Pc.flight, Point.pending]
  simp only [hnone, htaken, List.count_nil] at hsum
  simp only [State.goto, State.insert, hrolled, if_false, Function.update_self, List.count_append] at hthen
  omega

/-- From a tidy state a step that is not careful can be followed to the loss of a row. -/
theorem careless_step_loses {e : Event Row n} (h : Tidy s) (hcareless : ¬Careful takes s e)
    (hstep : Fires (step takes) s e u) : ∃ es v, Run (Fires (step takes)) s es v ∧ ¬Accounted v := by
  cases steps_of_step takes hstep with
  | @production t works m hpc =>
    have hcareless : ¬(s.thread t).careful takes s works := hcareless
    rw [hpc] at hcareless
    simp only [Pc.careful, not_forall, Bool.not_eq_false] at hcareless
    obtain ⟨hsome, t', hcopied⟩ := hcareless
    obtain ⟨row, hrow⟩ := Option.isSome_iff_exists.mp hsome
    have hne : t' ≠ t := by
      rintro rfl
      rw [hpc] at hcopied
      cases hcopied
    have hnow : step takes s (.run t true) = some ((s.append .production [row]).goto t (.energy m)) := by
      simp [step, hpc, hrow]
    exact append_loses h (by simp [hpc, Pc.flight]) (by simp [Pc.flight]) hne hnow hcopied
  | @energy t works m hpc =>
    have hcareless : ¬(s.thread t).careful takes s works := hcareless
    rw [hpc] at hcareless
    simp only [Pc.careful, not_forall, Bool.not_eq_false] at hcareless
    obtain ⟨hsome, t', hcopied⟩ := hcareless
    obtain ⟨row, hrow⟩ := Option.isSome_iff_exists.mp hsome
    have hne : t' ≠ t := by
      rintro rfl
      rw [hpc] at hcopied
      cases hcopied
    have hnow : step takes s (.run t true) =
        some ((s.append .energy [row]).goto t (.telemetry m.telemetry)) := by
      simp [step, hpc, hrow]
    exact append_loses h (by simp [hpc, Pc.flight]) (by simp [Pc.flight]) hne hnow hcopied
  | @flushing t works p nested taken _ hpc hflush =>
    obtain rfl := h.disciplined.not_nested hpc hflush
    cases hflush with
    | insert => exact ⟨_, _, Run.cons hstep .nil, insert_loses h.accounted hpc hcareless⟩
    | acquire | copy | clear | nothing | release =>
      refine absurd ?_ hcareless
      show (s.thread t).careful takes s works
      rw [hpc]
      trivial
  | message | flush => exact absurd trivial hcareless
  | noTelemetry hpc | lock hpc | extend hpc | full hpc | notFull hpc | unlock hpc =>
    refine absurd ?_ hcareless
    show (s.thread _).careful takes s _
    rw [hpc]
    trivial

end

end TwinVoice.Ingest.Buffers
