import TwinVoice.Voice.Ledger

/-! # What confirming and cancelling do

The session that `confirm` leaves, by what `check` finds. Only a clear finding
reaches the tool, and from there on the row is no longer pending unless the
tool dies before anything is committed. -/

namespace TwinVoice.Voice

open TwinVoice.Lib TwinVoice.Nlu

variable {W : Type}

/-- The session that a tool call leaves. -/
def afterTool (s : Session (Database W) Event) (e : Event) (r : ToolResult W) :
    Session (Database W) Event where
  stored := match r.committed with
    | some registry => { s.work with registry := registry }
    | none => s.stored
  work := { s.work with registry := r.registry }
  log := s.log ++ [e]

def Ending.answer : Ending → Except Failure (Except Problem Params)
  | .done output => .ok (.ok output)
  | .refused problem => .ok (.error problem)
  | .died reason => .error (.crash reason)

theorem run_callTool {env : Env W} {tool : String} {run : Tool W} (hrun : env.tools tool = some run)
    (action : Option Uuid) (context : ToolContext) (params : Params)
    (s : Session (Database W) Event) :
    (callTool env action tool context params).run s =
      ((run context params s.work.registry).ending.answer,
        afterTool s (.toolRun action tool params) (run context params s.work.registry)) := by
  unfold callTool afterTool
  simp only [hrun, Tx.run_bind, Tx.run_emit, Tx.andThen_ok, Tx.run_read]
  generalize run context params s.work.registry = r
  obtain ⟨registry, committed, ending⟩ := r
  cases committed <;> cases ending <;> rfl

theorem run_callTool_unknown {env : Env W} {tool : String} (hrun : env.tools tool = none)
    (action : Option Uuid) (context : ToolContext) (params : Params)
    (s : Session (Database W) Event) :
    (callTool env action tool context params).run s = (.error (.crash "KeyError"), s) := by
  unfold callTool
  simp only [hrun, Tx.run_raise]

@[simp] theorem run_saveAction (a : VoiceAction) (s : Session (Database W) Event) :
    (saveAction a).run s =
      (.ok (), { s with work := { s.work with actions := putAction s.work.actions a } }) := rfl

theorem SameAction.factorPassed (a : VoiceAction) : SameAction a a.factorPassed := by
  unfold VoiceAction.factorPassed
  split
  · exact ⟨rfl, rfl, rfl, rfl⟩
  · exact .refl a

theorem run_actionOr404 {s : Session (Database W) Event} {id : Uuid} {a : VoiceAction}
    (hfind : s.work.actions.find id = some a) : (actionOr404 id).run s = (.ok a, s) := by
  unfold actionOr404
  simp only [Tx.run_bind, Tx.run_read, Tx.andThen_ok, hfind, Tx.run_orRaise_some]

/-- What a piece of a request does to the actions, besides what it says. -/
structure Keeps (s t : Session (Database W) Event) : Prop where
  work : Evolves [] s.work.actions t.work.actions
  stored : t.stored = s.stored ∨ Evolves [] s.work.actions t.stored.actions

theorem Keeps.refl (s : Session (Database W) Event) : Keeps s s := ⟨.refl _ _, .inl rfl⟩

/-- Saving a settled row and committing. -/
theorem Keeps.settle {s t : Session (Database W) Event} {a b : VoiceAction}
    (hfind : s.work.actions.find a.id = some a) (same : SameAction a b) (done : b.status ≠ .pending)
    (hwork : t.work.actions = putAction s.work.actions b) (hstored : t.stored = t.work) :
    Keeps s t := by
  have h : Evolves [] s.work.actions t.work.actions := hwork ▸ Evolves.put hfind same done
  exact ⟨h, .inr (hstored ▸ h)⟩

/-- The call that confirming `a` makes, seen from the state before it. -/
def confirmedCall (w : Wiring) (env : Env W) (actor : CurrentUser) (lang : String) (db : Database W)
    (a : VoiceAction) (run : Tool W) : ToolResult W :=
  run (confirmContext env actor (sessionIdOf db a) lang) (w.codec.reviveParams a.params) db.registry

def confirmedRun (w : Wiring) (a : VoiceAction) : Event :=
  .toolRun (some a.id) a.tool (w.codec.reviveParams a.params)

theorem sessionIdOf_actions (db : Database W) (t : Table VoiceAction) (a : VoiceAction) :
    sessionIdOf { db with actions := t } a = sessionIdOf db a := rfl

theorem execute_ends (w : Wiring) {env : Env W} (actor : CurrentUser) (lang : String)
    {s : Session (Database W) Event} {a : VoiceAction} {run : Tool W}
    (hfind : s.work.actions.find a.id = some a) (hrun : env.tools a.tool = some run) :
    let t := ((execute w env actor a lang).run s).2
    Keeps s t ∧ t.log = s.log ++ [confirmedRun w a] ∧ Settled t.work.actions a.id ∧
      ((confirmedCall w env actor lang s.work a run).diesUncommitted = false →
        Settled t.stored.actions a.id) := by
  intro t
  have hsame : SameAction a (a.confirm env.later) :=
    (SameAction.factorPassed a).trans ⟨rfl, rfl, rfl, rfl⟩
  have hfirst : Evolves [] s.work.actions (putAction s.work.actions (a.confirm env.later)) :=
    .put hfind hsame nofun
  have hheld : (putAction s.work.actions (a.confirm env.later)).find a.id =
      some (a.confirm env.later) := by
    have := find_putAction (b := a.confirm env.later) (hsame.id ▸ hfind)
    rwa [hsame.id] at this
  have hsettled : Settled (putAction s.work.actions (a.confirm env.later)) a.id :=
    ⟨_, hheld, nofun⟩
  -- Both handled endings save a second time and commit.
  have hhandled : ∀ b : VoiceAction, SameAction (a.confirm env.later) b → b.status ≠ .pending →
      t.work.actions = putAction (putAction s.work.actions (a.confirm env.later)) b →
      t.stored = t.work → Keeps s t ∧ Settled t.work.actions a.id ∧ Settled t.stored.actions a.id := by
    intro b hb hdone hwork hstored
    have hput : Evolves [] (putAction s.work.actions (a.confirm env.later)) t.work.actions :=
      hwork ▸ .put (hsame.id ▸ hheld) hb hdone
    have hend : Settled t.work.actions a.id := hsettled.evolves hput
    refine ⟨⟨hfirst.trans hput, .inr ?_⟩, hend, ?_⟩
    · rw [hstored]
      exact hfirst.trans hput
    · rw [hstored]
      exact hend
  have ht : t = ((execute w env actor a lang).run s).2 := rfl
  simp only [execute, Tx.run_bind, run_saveAction, Tx.andThen_ok, Tx.run_read, run_callTool hrun,
    sessionIdOf_actions] at ht
  unfold confirmedCall
  generalize run _ (w.codec.reviveParams a.params) s.work.registry = r at ht ⊢
  obtain ⟨registry, committed, ending⟩ := r
  cases ending with
  | done output =>
    obtain ⟨hkeeps, hwork, hstored⟩ := hhandled ((a.confirm env.later).finish env.later _)
      ⟨rfl, rfl, rfl, rfl⟩ nofun (by rw [ht]; rfl) (by rw [ht]; rfl)
    exact ⟨hkeeps, by rw [ht]; rfl, hwork, fun _ => hstored⟩
  | refused problem =>
    obtain ⟨hkeeps, hwork, hstored⟩ := hhandled ((a.confirm env.later).fail problem.text)
      ⟨rfl, rfl, rfl, rfl⟩ nofun (by rw [ht]; rfl) (by rw [ht]; rfl)
    exact ⟨hkeeps, by rw [ht]; rfl, hwork, fun _ => hstored⟩
  | died reason =>
    cases committed with
    | none =>
      rw [ht]
      exact ⟨⟨hfirst, .inl rfl⟩, rfl, hsettled, nofun⟩
    | some registry' =>
      rw [ht]
      exact ⟨⟨hfirst, .inr hfirst⟩, rfl, hsettled, fun _ => hsettled⟩

/-- A tool that is not in the table is a `KeyError`, and nothing is committed. -/
theorem execute_unknown (w : Wiring) {env : Env W} (actor : CurrentUser) (lang : String)
    {s : Session (Database W) Event} {a : VoiceAction}
    (hfind : s.work.actions.find a.id = some a) (hrun : env.tools a.tool = none) :
    let t := ((execute w env actor a lang).run s).2
    Keeps s t ∧ t.log = s.log := by
  intro t
  have ht : t = ((execute w env actor a lang).run s).2 := rfl
  simp only [execute, Tx.run_bind, run_saveAction, Tx.andThen_ok, Tx.run_read,
    run_callTool_unknown hrun, Tx.andThen_error] at ht
  rw [ht]
  exact ⟨⟨.put hfind ((SameAction.factorPassed a).trans ⟨rfl, rfl, rfl, rfl⟩) nofun, .inl rfl⟩, rfl⟩

/-- The ways through `confirm` for the action it finds. -/
inductive ConfirmRuns (w : Wiring) (env : Env W) (actor : CurrentUser) (pin : Option String)
    (lang : String) (a : VoiceAction) (s : Session (Database W) Event)
    (r : Except Failure (VoiceAction × String) × Session (Database W) Event) : Prop
  | failed (why : check w env actor s.work.registry a pin ≠ .clear) (failure : Failure)
      (ends : r = (.error failure, s))
  | settled (why : check w env actor s.work.registry a pin ≠ .clear) (b : VoiceAction)
      (same : SameAction a b) (done : b.status ≠ .pending)
      (work : r.2.work.actions = putAction s.work.actions b) (stored : r.2.stored = r.2.work)
      (log : r.2.log = s.log)
  | cleared (clear : check w env actor s.work.registry a pin = .clear)
      (ends : r = (execute w env actor a lang).run s)

theorem confirm_runs (w : Wiring) (env : Env W) (actor : CurrentUser) (pin : Option String)
    (lang : String) {s : Session (Database W) Event} {a : VoiceAction}
    (hfind : s.work.actions.find a.id = some a) :
    ConfirmRuns w env actor pin lang a s ((confirm w env actor a.id pin lang).run s) := by
  generalize hr : (confirm w env actor a.id pin lang).run s = r
  simp only [confirm, Tx.run_bind, run_actionOr404 hfind, Tx.andThen_ok, Tx.run_read] at hr
  cases hc : check w env actor s.work.registry a pin with
  | clear =>
    rw [hc] at hr
    exact .cleared hc hr.symm
  | notPending | pinUnavailable | broken =>
    rw [hc] at hr
    exact .failed (by rw [hc]; nofun) _ hr.symm
  | windowClosed =>
    rw [hc] at hr
    subst hr
    exact .settled (by rw [hc]; nofun) { a with status := .expired } ⟨rfl, rfl, rfl, rfl⟩ nofun rfl rfl rfl
  | t3Disabled =>
    rw [hc] at hr
    subst hr
    exact .settled (by rw [hc]; nofun) { a with status := .rejected } ⟨rfl, rfl, rfl, rfl⟩ nofun rfl rfl rfl
  | pinWrong =>
    rw [hc] at hr
    subst hr
    exact .settled (by rw [hc]; nofun) { a with status := .rejected, secondFactorOk := some false }
      ⟨rfl, rfl, rfl, rfl⟩ nofun rfl rfl rfl
  | invalid errors =>
    rw [hc] at hr
    subst hr
    exact .settled (by rw [hc]; nofun)
      { a.factorPassed with status := .rejected, validationErrors := some errors }
      ((SameAction.factorPassed a).trans ⟨rfl, rfl, rfl, rfl⟩) nofun rfl rfl rfl

/-- How `confirm` ends for the action it finds. -/
inductive ConfirmEnds (w : Wiring) (env : Env W) (actor : CurrentUser) (pin : Option String)
    (lang : String) (a : VoiceAction) (s t : Session (Database W) Event) : Prop
  | stopped (log : t.log = s.log)
      (why : check w env actor s.work.registry a pin ≠ .clear ∨ env.tools a.tool = none)
  | ran (run : Tool W) (known : env.tools a.tool = some run)
      (clear : check w env actor s.work.registry a pin = .clear)
      (log : t.log = s.log ++ [confirmedRun w a]) (work : Settled t.work.actions a.id)
      (stored : (confirmedCall w env actor lang s.work a run).diesUncommitted = false →
        Settled t.stored.actions a.id)

theorem confirm_ends (w : Wiring) (env : Env W) (actor : CurrentUser) (pin : Option String)
    (lang : String) {s : Session (Database W) Event} {a : VoiceAction}
    (hfind : s.work.actions.find a.id = some a) :
    let t := ((confirm w env actor a.id pin lang).run s).2
    Keeps s t ∧ ConfirmEnds w env actor pin lang a s t := by
  intro t
  have hruns := confirm_runs w env actor pin lang hfind
  have ht : t = ((confirm w env actor a.id pin lang).run s).2 := rfl
  generalize (confirm w env actor a.id pin lang).run s = r at hruns ht
  rw [ht]
  cases hruns with
  | failed why failure ends =>
    rw [ends]
    exact ⟨.refl s, .stopped rfl (.inl why)⟩
  | settled why b same done work stored log =>
    exact ⟨.settle hfind same done work stored, .stopped log (.inl why)⟩
  | cleared clear ends =>
    rw [ends]
    cases hrun : env.tools a.tool with
    | none =>
      obtain ⟨hkeeps, hlog⟩ := execute_unknown w actor lang hfind hrun
      exact ⟨hkeeps, .stopped hlog (.inr hrun)⟩
    | some run =>
      obtain ⟨hkeeps, hlog, hwork, hstored⟩ := execute_ends w actor lang hfind hrun
      exact ⟨hkeeps, .ran run hrun clear hlog hwork hstored⟩

theorem cancel_ends {s : Session (Database W) Event} {a : VoiceAction}
    (hfind : s.work.actions.find a.id = some a) :
    let t := ((cancel a.id).run s).2
    Keeps s t ∧ t.log = s.log := by
  intro t
  have ht : t = ((cancel a.id).run s).2 := rfl
  simp only [cancel, Tx.run_bind, run_actionOr404 hfind, Tx.andThen_ok, Tx.run_ite] at ht
  by_cases hp : a.status ≠ .pending
  · rw [if_pos hp] at ht
    rw [ht]
    exact ⟨.refl s, rfl⟩
  · rw [if_neg hp] at ht
    refine ⟨.settle (b := { a with status := .cancelled }) hfind ⟨rfl, rfl, rfl, rfl⟩ nofun ?_ ?_, ?_⟩
    · rw [ht]; rfl
    · rw [ht]; rfl
    · rw [ht]; rfl

theorem run_actionOr404_none {s : Session (Database W) Event} {id : Uuid}
    (hfind : s.work.actions.find id = none) :
    (actionOr404 id).run s = (.error (.problem (.notFound "Voice action not found")), s) := by
  unfold actionOr404
  simp only [Tx.run_bind, Tx.run_read, Tx.andThen_ok, hfind, Tx.run_orRaise_none]

theorem confirm_missing (w : Wiring) (env : Env W) (actor : CurrentUser) (pin : Option String)
    (lang : String) {s : Session (Database W) Event} {id : Uuid}
    (hfind : s.work.actions.find id = none) : ((confirm w env actor id pin lang).run s).2 = s := by
  simp only [confirm, Tx.run_bind, run_actionOr404_none hfind, Tx.andThen_error]

theorem cancel_missing {s : Session (Database W) Event} {id : Uuid}
    (hfind : s.work.actions.find id = none) : ((cancel id).run s).2 = s := by
  simp only [cancel, Tx.run_bind, run_actionOr404_none hfind, Tx.andThen_error]

end TwinVoice.Voice
