import Mathlib.Logic.Function.Basic
import TwinVoice.Lib.Transition
import TwinVoice.Voice.Control

/-! # Concurrent requests on one action

Each request is a read-committed transaction of its own: it reads the row,
works with what it read, and commits what it makes of the row later. Nothing
locks the row in between, so the tool may be called on a row that another
request has settled meanwhile. `OnFreshRow` says when it is not. -/

namespace TwinVoice.Voice.Interleave

open TwinVoice.Lib TwinVoice.Lib.Transition TwinVoice.Nlu TwinVoice.Voice

variable {W : Type}

/-- A confirmation, a cancellation, or the sweep that starts every utterance. -/
inductive Job (W : Type)
  | confirm (env : Env W) (actor : CurrentUser) (pin : Option String)
  | cancel
  | sweep (now : Instant)

/-- How far a request is. `snapshot` is the row as it was read; `kept` says
that a commit of the tool has already stored the confirmed row. -/
inductive Phase
  | idle
  | read (snapshot : VoiceAction)
  | passed (snapshot : VoiceAction)
  | running (kept : Bool)
  | ended
  deriving DecidableEq

/-- What the requests do for all to see. -/
inductive Mark
  | toolRun (request : Nat)
  | committed (request : Nat) (status : ActionStatus)
  deriving DecidableEq

structure Sys where
  row : VoiceAction
  phase : Nat → Phase
  log : List Mark

def start (row : VoiceAction) : Sys := ⟨row, fun _ => .idle, []⟩

inductive Move (W : Type)
  | read (request : Nat)
  | check (request : Nat) (registry : Registry W)
  | call (request : Nat)
  | commitWithin (request : Nat)
  | finish (request : Nat) (ending : Ending)
  | settle (request : Nat)

def Sys.goes (s : Sys) (r : Nat) (phase : Phase) : Sys :=
  { s with phase := Function.update s.phase r phase }

/-- Commit the columns that `f` sets. -/
def Sys.commit (s : Sys) (r : Nat) (f : VoiceAction → VoiceAction) : Sys :=
  { s with row := f s.row, log := s.log ++ [.committed r (f s.row).status] }

/-- What `confirm` commits when it does not call the tool. -/
def refusal : Finding → Option (VoiceAction → VoiceAction)
  | .windowClosed => some fun a => { a with status := .expired }
  | .t3Disabled => some fun a => { a with status := .rejected }
  | .pinWrong => some fun a => { a with status := .rejected, secondFactorOk := some false }
  | .invalid errors => some fun a =>
      { a.factorPassed with status := .rejected, validationErrors := some errors }
  | _ => none

/-- What `confirm` commits after the tool, unless it died. -/
def outcome (w : Wiring) (env : Env W) : Ending → Option (VoiceAction → VoiceAction)
  | .done output => some fun a => (a.confirm env.later).finish env.later (w.codec.jsonable output)
  | .refused problem => some fun a => (a.confirm env.later).fail problem.text
  | .died _ => none

/-- End the request, with a commit if there is one. -/
def Sys.ends (s : Sys) (r : Nat) : Option (VoiceAction → VoiceAction) → Sys
  | some f => (s.commit r f).goes r .ended
  | none => s.goes r .ended

def step (w : Wiring) (jobs : Nat → Job W) (s : Sys) : Move W → Option Sys
  | .read r => if s.phase r = .idle then some (s.goes r (.read s.row)) else none
  | .check r registry =>
    match jobs r, s.phase r with
    | .confirm env actor pin, .read snapshot =>
      let finding := check w env actor registry snapshot pin
      some (if finding = .clear then s.goes r (.passed snapshot) else s.ends r (refusal finding))
    | _, _ => none
  | .call r =>
    match jobs r, s.phase r with
    | .confirm _ _ _, .passed _ =>
      some { s.goes r (.running false) with log := s.log ++ [.toolRun r] }
    | _, _ => none
  | .commitWithin r =>
    match jobs r, s.phase r with
    | .confirm env _ _, .running _ => some ((s.commit r (·.confirm env.later)).goes r (.running true))
    | _, _ => none
  | .finish r ending =>
    match jobs r, s.phase r with
    | .confirm env _ _, .running _ => some (s.ends r (outcome w env ending))
    | _, _ => none
  | .settle r =>
    match jobs r, s.phase r with
    | .cancel, .read snapshot =>
      some (s.ends r (if snapshot.status = .pending then some fun a => { a with status := .cancelled }
        else none))
    | .sweep now, .read snapshot =>
      some (s.ends r (if snapshot.status = .pending ∧ snapshot.windowClosed now
        then some fun a => { a with status := .expired } else none))
    | _, _ => none

/-- Before a call of the tool there is no other one, and no cancellation or expiry. -/
def Harmless : Mark → Prop
  | .toolRun _ => False
  | .committed _ status => status ≠ .cancelled ∧ status ≠ .expired

instance : DecidablePred Harmless
  | .toolRun _ => inferInstanceAs (Decidable False)
  | .committed _ _ => inferInstanceAs (Decidable (_ ∧ _))

def Mark.isRun : Mark → Bool
  | .toolRun _ => true
  | .committed _ _ => false

def Safe (log : List Mark) : Prop :=
  log.Pairwise fun earlier later => later.isRun = true → Harmless earlier

instance (log : List Mark) : Decidable (Safe log) :=
  inferInstanceAs (Decidable (List.Pairwise _ _))

/-- The tool is called while the row is still pending and no other call is
under way uncommitted; and no call dies before anything is committed. -/
def OnFreshRow (s : Sys) : Move W → Prop
  | .call _ => s.row.status = .pending ∧ ∀ r, s.phase r ≠ .running false
  | .finish r (.died _) => s.phase r ≠ .running false
  | _ => True

/-! ## One confirmation alone

Without another request the moves come to what `confirm` does to the row. -/

/-- The row that a confirmation of `a` leaves when nothing comes in between. -/
def soloRow (w : Wiring) (env : Env W) (actor : CurrentUser) (pin : Option String) (lang : String)
    (db : Database W) (a : VoiceAction) : VoiceAction :=
  if check w env actor db.registry a pin = .clear then
    match env.tools a.tool with
    | none => a
    | some run =>
      let r := confirmedCall w env actor lang db a run
      match outcome w env r.ending, r.committed with
      | some f, _ => f a
      | none, some _ => a.confirm env.later
      | none, none => a
  else match refusal (check w env actor db.registry a pin) with
    | some f => f a
    | none => a

theorem find_put {t : Table VoiceAction} {a b : VoiceAction} (hfind : t.find a.id = some a)
    (hid : b.id = a.id) : (putAction t b).find a.id = some b :=
  hid ▸ find_putAction (hid ▸ hfind)

theorem confirm_id (a : VoiceAction) (now : Instant) : (a.confirm now).id = a.id :=
  (SameAction.factorPassed a).id

theorem confirm_row (w : Wiring) (env : Env W) (actor : CurrentUser) (pin : Option String)
    (lang : String) {db : Database W} {a : VoiceAction} (hfind : db.actions.find a.id = some a) :
    ((confirm w env actor a.id pin lang).run ⟨db, db, []⟩).2.stored.actions.find a.id =
      some (soloRow w env actor pin lang db a) := by
  have hcommitted : ∀ t : Session (Database W) Event, ∀ b : VoiceAction, b.id = a.id →
      t.stored.actions = putAction db.actions b → t.stored.actions.find a.id = some b := by
    intro t b hid hstored
    rw [hstored]
    exact find_put hfind hid
  generalize ht : ((confirm w env actor a.id pin lang).run ⟨db, db, []⟩).2 = t
  simp only [confirm, Tx.run_bind, run_actionOr404 (s := ⟨db, db, []⟩) hfind, Tx.andThen_ok,
    Tx.run_read] at ht
  unfold soloRow
  cases hc : check w env actor db.registry a pin with
  | clear =>
    rw [hc] at ht
    rw [if_pos rfl]
    simp only [execute, Tx.run_bind, run_saveAction, Tx.andThen_ok, Tx.run_read] at ht
    cases hrun : env.tools a.tool with
    | none =>
      rw [run_callTool_unknown hrun] at ht
      subst ht
      exact hfind
    | some run =>
      have hconfirmed : (putAction db.actions (a.confirm env.later)).find a.id =
          some (a.confirm env.later) := find_put hfind (confirm_id a env.later)
      have htwice : ∀ b : VoiceAction, b.id = a.id →
          (putAction (putAction db.actions (a.confirm env.later)) b).find a.id = some b := by
        intro b hid
        have hheld := confirm_id a env.later ▸ hconfirmed
        exact confirm_id a env.later ▸ find_put hheld (hid.trans (confirm_id a env.later).symm)
      simp only [run_callTool hrun, sessionIdOf_actions] at ht
      simp only [confirmedCall]
      generalize run _ (w.codec.reviveParams a.params) db.registry = r at ht ⊢
      obtain ⟨registry, committed, ending⟩ := r
      cases ending with
      | done output => subst ht; exact htwice _ (confirm_id a env.later)
      | refused problem => subst ht; exact htwice _ (confirm_id a env.later)
      | died reason =>
        cases committed with
        | none => subst ht; exact hfind
        | some registry' => subst ht; exact hconfirmed
  | notPending | pinUnavailable | broken =>
    rw [hc] at ht
    subst ht
    exact hfind
  | windowClosed | t3Disabled | pinWrong =>
    rw [hc] at ht
    rw [if_neg (by simp)]
    exact hcommitted t _ rfl (ht ▸ rfl)
  | invalid errors =>
    rw [hc] at ht
    rw [if_neg (by simp)]
    exact hcommitted t _ (SameAction.factorPassed a).id (ht ▸ rfl)

/-- The moves of one confirmation: the checks, and after them the call if the tool is known. -/
def soloMoves (w : Wiring) (env : Env W) (actor : CurrentUser) (pin : Option String) (lang : String)
    (db : Database W) (a : VoiceAction) : List (Move W) :=
  [.read 0, .check 0 db.registry] ++
    if check w env actor db.registry a pin = .clear then
      match env.tools a.tool with
      | none => []
      | some run =>
        let r := confirmedCall w env actor lang db a run
        [.call 0] ++ (if r.committed.isSome then [.commitWithin 0] else []) ++ [.finish 0 r.ending]
    else []

theorem confirm_confirm (a : VoiceAction) (now : Instant) :
    (a.confirm now).confirm now = a.confirm now := by
  unfold VoiceAction.confirm VoiceAction.factorPassed
  by_cases ht : needsSecondFactor a.tier = true <;> simp [ht]

theorem outcome_confirm {w : Wiring} {env : Env W} {ending : Ending} {f : VoiceAction → VoiceAction}
    (h : outcome w env ending = some f) (a : VoiceAction) : f (a.confirm env.later) = f a := by
  cases ending <;> cases h <;> simp only [confirm_confirm]

/-- One confirmation alone is a run that leaves the row as `confirm` does, and
calls the tool when `confirm` does. -/
theorem confirm_solo (w : Wiring) (env : Env W) (actor : CurrentUser) (pin : Option String)
    (lang : String) {db : Database W} {a : VoiceAction} (hfind : db.actions.find a.id = some a) :
    let t := ((confirm w env actor a.id pin lang).run ⟨db, db, []⟩).2
    ∃ s, Run (Fires (step w fun _ => .confirm env actor pin)) (start a)
        (soloMoves w env actor pin lang db a) s ∧
      t.stored.actions.find a.id = some s.row ∧ (RunsAction t.log ↔ s.log.any Mark.isRun = true) := by
  intro t
  have hrow := confirm_row w env actor pin lang hfind
  obtain ⟨-, hends⟩ := confirm_ends w env actor pin lang (s := ⟨db, db, []⟩) hfind
  change ConfirmEnds w env actor pin lang a ⟨db, db, []⟩ t at hends
  change t.stored.actions.find a.id = _ at hrow
  clear_value t
  suffices hreplay : ∃ s, replay (step w fun _ => .confirm env actor pin) (start a)
      (soloMoves w env actor pin lang db a) = some s ∧ s.row = soloRow w env actor pin lang db a ∧
      (s.log.any Mark.isRun = true ↔
        check w env actor db.registry a pin = .clear ∧ (env.tools a.tool).isSome) by
    obtain ⟨s, hs, hsrow, hslog⟩ := hreplay
    refine ⟨s, run_of_replay hs, hsrow ▸ hrow, ?_⟩
    rw [hslog]
    cases hends with
    | stopped log why =>
      rw [log]
      refine ⟨fun h => absurd h not_runsAction_nil, ?_⟩
      rintro ⟨hclear, hknown⟩
      cases why with
      | inl hcheck => exact absurd hclear hcheck
      | inr hnone => rw [hnone] at hknown; cases hknown
    | ran run known clear log work stored =>
      refine ⟨fun _ => ⟨clear, by rw [known]; rfl⟩, fun _ => ?_⟩
      rw [log]
      exact ⟨a.id, a.tool, _, List.mem_singleton_self _⟩
  have hchecked : ∀ moves, replay (step w fun _ => .confirm env actor pin) (start a)
      ([.read 0, .check 0 db.registry] ++ moves) =
        replay (step w fun _ => .confirm env actor pin)
          (if check w env actor db.registry a pin = .clear
            then ((start a).goes 0 (.read a)).goes 0 (.passed a)
            else ((start a).goes 0 (.read a)).ends 0 (refusal (check w env actor db.registry a pin)))
          moves := fun _ => rfl
  unfold soloMoves soloRow
  rw [hchecked]
  by_cases hc : check w env actor db.registry a pin = .clear
  · simp only [if_pos hc]
    cases hrun : env.tools a.tool with
    | none => exact ⟨_, rfl, rfl, nofun, fun h => nomatch h.2⟩
    | some run =>
      dsimp only
      generalize confirmedCall w env actor lang db a run = r
      obtain ⟨registry, committed, ending⟩ := r
      cases hout : outcome w env ending with
      | none =>
        cases committed <;> refine ⟨_, rfl, ?_, fun _ => ⟨hc, rfl⟩, fun _ => ?_⟩ <;> rw [hout] <;> rfl
      | some f =>
        have hagain := outcome_confirm hout a
        cases committed with
        | none =>
          refine ⟨_, rfl, ?_, fun _ => ⟨hc, rfl⟩, fun _ => ?_⟩
          · rw [hout]; rfl
          · rw [hout]; rfl
        | some registry' =>
          refine ⟨_, rfl, ?_, fun _ => ⟨hc, rfl⟩, fun _ => ?_⟩
          · rw [hout]; exact hagain
          · rw [hout]; rfl
  · simp only [if_neg hc]
    cases hr : refusal (check w env actor db.registry a pin) with
    | none => exact ⟨_, rfl, rfl, nofun, fun h => absurd h.1 hc⟩
    | some f => exact ⟨_, rfl, rfl, nofun, fun h => absurd h.1 hc⟩

/-! ## The invariant -/

/-- A pending row has seen no commit, and a call under way is either
uncommitted or has settled the row. -/
structure Inv (s : Sys) : Prop where
  fresh : s.row.status = .pending → ∀ m ∈ s.log, m.isRun = true
  called : ∀ m ∈ s.log, m.isRun = true → s.row.status ≠ .pending ∨ ∃ r, s.phase r = .running false
  safe : Safe s.log

theorem Inv.start (row : VoiceAction) : Inv (start row) :=
  ⟨fun _ _ hm => absurd hm List.not_mem_nil, fun _ hm => absurd hm List.not_mem_nil, List.Pairwise.nil⟩

theorem goes_running {s : Sys} {r r' : Nat} (phase : Phase) (hr : s.phase r ≠ .running false)
    (hr' : s.phase r' = .running false) : (s.goes r phase).phase r' = .running false := by
  have hne : r' ≠ r := by
    rintro rfl
    exact hr hr'
  exact (Function.update_of_ne hne phase s.phase).trans hr'

theorem Inv.goes {s : Sys} (h : Inv s) {r : Nat} (phase : Phase) (hr : s.phase r ≠ .running false) :
    Inv (s.goes r phase) := by
  refine ⟨h.fresh, fun m hm hrun => ?_, h.safe⟩
  cases h.called m hm hrun with
  | inl hdone => exact .inl hdone
  | inr hunder =>
    obtain ⟨r', hr'⟩ := hunder
    exact .inr ⟨r', goes_running phase hr hr'⟩

theorem safe_concat {log : List Mark} {m : Mark} (h : Safe log)
    (hm : m.isRun = true → ∀ earlier ∈ log, Harmless earlier) : Safe (log ++ [m]) := by
  refine List.pairwise_append.mpr ⟨h, List.pairwise_singleton _ _, ?_⟩
  intro earlier he later hl hrun
  rw [List.mem_singleton] at hl
  subst hl
  exact hm hrun earlier he

/-- After a commit the row is not pending, wherever the request goes. -/
theorem Inv.commits {s : Sys} (h : Inv s) (r : Nat) (phase : Phase) {f : VoiceAction → VoiceAction}
    (hf : ∀ a, (f a).status ≠ .pending) : Inv ((s.commit r f).goes r phase) :=
  ⟨fun hp => absurd hp (hf s.row), fun _ _ _ => .inl (hf s.row), safe_concat h.safe nofun⟩

theorem Inv.ends {s : Sys} (h : Inv s) {r : Nat} {f : Option (VoiceAction → VoiceAction)}
    (hf : ∀ g, f = some g → ∀ a, (g a).status ≠ .pending)
    (hnone : f = none → s.phase r ≠ .running false) : Inv (s.ends r f) := by
  cases f with
  | some g => exact h.commits r .ended (hf g rfl)
  | none => exact h.goes .ended (hnone rfl)

theorem refusal_settles {finding : Finding} {g : VoiceAction → VoiceAction}
    (h : refusal finding = some g) (a : VoiceAction) : (g a).status ≠ .pending := by
  cases finding <;> cases h <;> nofun

theorem confirm_settles (a : VoiceAction) (now : Instant) : (a.confirm now).status ≠ .pending := by
  unfold VoiceAction.confirm
  nofun

theorem outcome_settles {w : Wiring} {env : Env W} {ending : Ending} {g : VoiceAction → VoiceAction}
    (h : outcome w env ending = some g) (a : VoiceAction) : (g a).status ≠ .pending := by
  cases ending <;> cases h <;> nofun

theorem guarded_settles {p : Prop} [Decidable p] {f g : VoiceAction → VoiceAction}
    (hf : ∀ a, (f a).status ≠ .pending) (h : (if p then some f else none) = some g)
    (a : VoiceAction) : (g a).status ≠ .pending := by
  by_cases hp : p
  · rw [if_pos hp] at h
    exact Option.some.inj h ▸ hf a
  · rw [if_neg hp] at h
    cases h

theorem Inv.call {s : Sys} (h : Inv s) {r : Nat} (hpending : s.row.status = .pending)
    (halone : ∀ r', s.phase r' ≠ .running false) :
    Inv { s.goes r (.running false) with log := s.log ++ [.toolRun r] } := by
  have hnone : ∀ m ∈ s.log, m.isRun ≠ true := by
    intro m hm hrun
    cases h.called m hm hrun with
    | inl hdone => exact hdone hpending
    | inr hunder => exact hunder.elim halone
  refine ⟨fun _ m hm => ?_, fun _ _ _ => .inr ⟨r, Function.update_self r _ s.phase⟩, ?_⟩
  · rw [List.mem_append, List.mem_singleton] at hm
    cases hm with
    | inl hm => exact h.fresh hpending m hm
    | inr hm => rw [hm]; rfl
  · exact safe_concat h.safe fun _ m hm => absurd (h.fresh hpending m hm) (hnone m hm)

theorem Inv.step {w : Wiring} {jobs : Nat → Job W} {s t : Sys} {m : Move W} (h : Inv s)
    (hfresh : OnFreshRow s m) (hstep : step w jobs s m = some t) : Inv t := by
  cases m with
  | read r =>
    simp only [Interleave.step] at hstep
    split at hstep
    · rename_i hidle
      cases hstep
      exact h.goes _ (by rw [hidle]; nofun)
    · cases hstep
  | check r registry =>
    simp only [Interleave.step] at hstep
    split at hstep
    · rename_i hphase
      have hr : s.phase r ≠ .running false := by rw [hphase]; nofun
      cases hstep
      split
      · exact h.goes _ hr
      · exact h.ends (fun g hg => refusal_settles hg) fun _ => hr
    · cases hstep
  | call r =>
    simp only [Interleave.step] at hstep
    split at hstep
    · cases hstep
      exact h.call hfresh.1 hfresh.2
    · cases hstep
  | commitWithin r =>
    simp only [Interleave.step] at hstep
    split at hstep
    · cases hstep
      exact h.commits r _ fun a => confirm_settles a _
    · cases hstep
  | finish r ending =>
    simp only [Interleave.step] at hstep
    split at hstep
    · cases hstep
      refine h.ends (fun g hg => outcome_settles hg) fun hnone => ?_
      cases ending with
      | done output => cases hnone
      | refused problem => cases hnone
      | died reason => exact hfresh
    · cases hstep
  | settle r =>
    simp only [Interleave.step] at hstep
    split at hstep
    · rename_i hphase
      cases hstep
      refine h.ends (fun g hg => guarded_settles ?_ hg) fun _ => by rw [hphase]; nofun
      exact fun _ hp => ActionStatus.noConfusion hp
    · rename_i hphase
      cases hstep
      refine h.ends (fun g hg => guarded_settles ?_ hg) fun _ => by rw [hphase]; nofun
      exact fun _ hp => ActionStatus.noConfusion hp
    · cases hstep

/-- In every interleaving in which the tool is called on fresh rows only, it is
called at most once and never after a cancellation or an expiry. -/
theorem interleaving_safe {w : Wiring} {jobs : Nat → Job W} {row : VoiceAction} {es : List (Move W)}
    {s : Sys} (h : Run (Guarded (Fires (step w jobs)) OnFreshRow) (start row) es s) : Safe s.log := by
  have hinv : Inv s := by
    refine h.guarded (Inv.start row) ?_
    intro t m u ht hfresh hstep
    exact ht.step hfresh hstep
  exact hinv.safe

/-- Two operators confirm, the others cancel. -/
def jobs : Nat → Job Unit
  | 0 => .confirm (atSecond 5) operator none
  | 1 => .confirm (atSecond 6) operator none
  | _ => .cancel

/-- One of them reads, checks, calls and commits before the others. -/
theorem interleaving_safe_alone : Safe [.toolRun 0, .committed 0 .executed] := by
  let read := (start waitingAction).goes 0 (.read waitingAction)
  let passed := read.goes 0 (.passed waitingAction)
  let called : Sys := { passed.goes 0 (.running false) with log := [.toolRun 0] }
  have hclear : check plainWiring (atSecond 5) operator waitingDatabase.registry waitingAction none =
      .clear := by decide
  have hchecked : step plainWiring jobs read (.check 0 waitingDatabase.registry) = some passed := by
    simp [step, jobs, read, passed, Sys.goes, hclear]
  have halone : ∀ r, passed.phase r ≠ .running false := by
    intro r
    by_cases hr : r = 0 <;> simp [passed, read, start, Sys.goes, Function.update, hr]
  let guarded := Guarded (Fires (step plainWiring jobs)) OnFreshRow
  have h₁ : guarded (start waitingAction) (.read 0) read := ⟨trivial, rfl⟩
  have h₂ : guarded read (.check 0 waitingDatabase.registry) passed := ⟨trivial, hchecked⟩
  have h₃ : guarded passed (.call 0) called := ⟨⟨rfl, halone⟩, rfl⟩
  have h₄ : guarded called (.finish 0 (.done [])) _ := ⟨trivial, rfl⟩
  exact interleaving_safe ((((Run.nil.snoc h₁).snoc h₂).snoc h₃).snoc h₄)

/-- Both confirmations read the row while it is pending. -/
theorem two_confirms_run_twice :
    ¬∀ es s, Run (Fires (step plainWiring jobs)) (start waitingAction) es s → Safe s.log := by
  intro h
  let moves : List (Move Unit) := [.read 0, .read 1, .check 0 waitingDatabase.registry,
    .check 1 waitingDatabase.registry, .call 0, .finish 0 (.done []), .call 1]
  have hlog : (replay (step plainWiring jobs) (start waitingAction) moves).map Sys.log =
      some [.toolRun 0, .committed 0 .executed, .toolRun 1] := by decide
  obtain ⟨s, hs, hslog⟩ := Option.map_eq_some_iff.mp hlog
  have hsafe := h moves s (run_of_replay hs)
  rw [hslog] at hsafe
  revert hsafe
  decide

end TwinVoice.Voice.Interleave
