import Mathlib.Tactic.TypeStar

/-! # Runs of a labelled transition system

A step relates the state before, the label of what happens and the state
after. A run is a finite chain of steps, and its labels in order are its
trace. Every safety result about a program that reacts to events one after
another goes through `Run.invariant`; a result that holds only while some
condition is met is a result about the runs of `Guarded`, through
`Run.guarded`; what holds of every run of an abstract system is carried over
to a program by `Simulates.run`. -/

namespace TwinVoice.Lib.Transition

variable {σ ε : Type*}

/-- From `s`, the steps labelled `es` in this order lead to the last state. -/
inductive Run (step : σ → ε → σ → Prop) (s : σ) : List ε → σ → Prop
  | nil : Run step s [] s
  | snoc {es t e u} : Run step s es t → step t e u → Run step s (es ++ [e]) u

/-- What holds of the empty trace and is kept by every step holds of every run. -/
theorem Run.invariant {step : σ → ε → σ → Prop} (Inv : List ε → σ → Prop) {s t : σ} {es : List ε}
    (init : Inv [] s) (next : ∀ es t e u, Inv es t → step t e u → Inv (es ++ [e]) u)
    (h : Run step s es t) : Inv es t := by
  induction h with
  | nil => exact init
  | snoc _ hstep ih => exact next _ _ _ _ ih hstep

/-- A run of one system is a run of another that allows the same steps. -/
theorem Run.mono {step step' : σ → ε → σ → Prop} (allowed : ∀ s e t, step s e t → step' s e t)
    {s t : σ} {es : List ε} (h : Run step s es t) : Run step' s es t := by
  induction h with
  | nil => exact .nil
  | snoc _ hstep ih => exact ih.snoc (allowed _ _ _ hstep)

/-- The steps taken from a state, and with a label, that meet a condition. -/
def Guarded (step : σ → ε → σ → Prop) (ok : σ → ε → Prop) : σ → ε → σ → Prop :=
  fun s e t => ok s e ∧ step s e t

/-- What every step that meets the condition keeps holds at the end of a run of such steps. -/
theorem Run.guarded {step : σ → ε → σ → Prop} {ok : σ → ε → Prop} {Inv : σ → Prop} {s t : σ}
    {es : List ε} (h : Run (Guarded step ok) s es t) (init : Inv s)
    (next : ∀ t e u, Inv t → ok t e → step t e u → Inv u) : Inv t := by
  refine Run.invariant (fun _ => Inv) init ?_ h
  intro _ t e u ht hstep
  exact next t e u ht hstep.1 hstep.2

/-- The step relation of a partial function: the label fixes the outcome. -/
def Fires (step : σ → ε → Option σ) : σ → ε → σ → Prop :=
  fun s e t => step s e = some t

/-- Take the labelled steps one after another, if each of them is possible. -/
def replay (step : σ → ε → Option σ) : σ → List ε → Option σ
  | s, [] => some s
  | s, e :: es => (step s e).bind (replay step · es)

theorem Run.cons {step : σ → ε → σ → Prop} {s t u : σ} {e : ε} {es : List ε}
    (hstep : step s e t) (h : Run step t es u) : Run step s (e :: es) u := by
  induction h with
  | nil => exact Run.snoc .nil hstep
  | @snoc fs m f v _ hf ih =>
    show Run step s ((e :: fs) ++ [f]) v
    exact ih.snoc hf

theorem Run.append {step : σ → ε → σ → Prop} {s t u : σ} {es fs : List ε}
    (h : Run step s es t) (h' : Run step t fs u) : Run step s (es ++ fs) u := by
  induction h' with
  | nil => rwa [List.append_nil]
  | snoc _ hstep ih => exact List.append_assoc .. ▸ ih.snoc hstep

/-- A replay that succeeds is a run. -/
theorem run_of_replay {step : σ → ε → Option σ} : ∀ {es : List ε} {s t : σ},
    replay step s es = some t → Run (Fires step) s es t
  | [], s, t, h => by cases h; exact .nil
  | e :: es, s, t, h => by
    obtain ⟨m, hm, hrest⟩ := Option.bind_eq_some_iff.mp h
    exact (run_of_replay hrest).cons hm

theorem replay_append (step : σ → ε → Option σ) (s : σ) (es fs : List ε) :
    replay step s (es ++ fs) = (replay step s es).bind (replay step · fs) := by
  induction es generalizing s with
  | nil => rfl
  | cons e es ih =>
    show (step s e).bind (replay step · (es ++ fs)) = _
    rw [funext ih, replay, Option.bind_assoc]

theorem replay_of_run {step : σ → ε → Option σ} {es : List ε} {s t : σ}
    (h : Run (Fires step) s es t) : replay step s es = some t := by
  induction h with
  | nil => rfl
  | snoc _ hstep ih =>
    have hlast : step _ _ = some _ := hstep
    rw [replay_append, ih]
    simp [replay, hlast]

/-- A partial function that steps only under a condition that can be tested. -/
def guarded (step : σ → ε → Option σ) (ok : σ → ε → Prop) [∀ s e, Decidable (ok s e)] :
    σ → ε → Option σ :=
  fun s e => if ok s e then step s e else none

theorem run_of_guarded {step : σ → ε → Option σ} {ok : σ → ε → Prop} [∀ s e, Decidable (ok s e)]
    {es : List ε} {s t : σ} (h : replay (guarded step ok) s es = some t) :
    Run (Guarded (Fires step) ok) s es t := by
  refine (run_of_replay h).mono ?_
  intro s e t hstep
  have hguarded : (if ok s e then step s e else none) = some t := hstep
  split at hguarded
  · rename_i hok
    exact ⟨hok, hguarded⟩
  · cases hguarded

/-- Each step of one system is, seen through `abs`, a step of the other under the label that
`label` gives it, or no step if it gives none; and it keeps what the view rests on. -/
structure Simulates {τ δ : Type*} (step : σ → ε → σ → Prop) (step' : τ → δ → τ → Prop) (abs : σ → τ)
    (label : ε → Option δ) (Inv : σ → Prop) : Prop where
  keeps : ∀ s e t, Inv s → step s e t → Inv t
  shown : ∀ s e t l, label e = some l → Inv s → step s e t → step' (abs s) l (abs t)
  hidden : ∀ s e t, label e = none → Inv s → step s e t → abs t = abs s

/-- A run of the one shows a run of the other. -/
theorem Simulates.run {τ δ : Type*} {step : σ → ε → σ → Prop} {step' : τ → δ → τ → Prop} {abs : σ → τ}
    {label : ε → Option δ} {Inv : σ → Prop} (sim : Simulates step step' abs label Inv) {s t : σ}
    {es : List ε} (hs : Inv s) (h : Run step s es t) :
    Inv t ∧ Run step' (abs s) (es.filterMap label) (abs t) := by
  induction h with
  | nil => exact ⟨hs, .nil⟩
  | @snoc es t e u _ hstep ih =>
    obtain ⟨hinv, hrun⟩ := ih
    refine ⟨sim.keeps t e u hinv hstep, ?_⟩
    rw [List.filterMap_append]
    cases hlabel : label e with
    | none =>
      rw [sim.hidden t e u hlabel hinv hstep]
      simpa [hlabel] using hrun
    | some l =>
      have hlast : [e].filterMap label = [l] := by simp [hlabel]
      rw [hlast]
      exact hrun.snoc (sim.shown t e u l hlabel hinv hstep)

end TwinVoice.Lib.Transition
