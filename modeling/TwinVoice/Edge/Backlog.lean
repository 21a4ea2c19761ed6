import TwinVoice.Edge.Delivery

/-! # Who empties the outbox

Only the connect callback starts a drain, and a drain ends at the first empty
`SELECT` or refused row. A row that is queued on a live connection after that
waits for the next connection, and every later prediction behind it. As long as
neither happens while nobody is on the way to look again, a connected runner
that has come to rest has an empty outbox. -/

namespace TwinVoice.Edge

open TwinVoice.Lib TwinVoice.Lib.Transition

namespace Runner

/-- A thread has still to pass `_drain_lock`, or to be started by the callback. -/
def scheduled (r : Runner) : Prop := 0 < r.callbacks ∨ 0 < r.waiting

/-- A drain is going to look at the outbox before it ends. -/
def attended (r : Runner) : Prop :=
  r.scheduled ∨ ∃ d ∈ r.drain, d.stage ≠ .returning

/-- No drain is running or scheduled to run, and no publish is in progress. -/
def quiet (r : Runner) : Prop := ¬r.scheduled ∧ r.drain = none ∧ r.publisher = .idle

def stranded (r : Runner) : Prop := r.connected ∧ r.quiet ∧ r.outbox.rows ≠ []

instance (r : Runner) : Decidable r.scheduled := inferInstanceAs (Decidable (_ ∨ _))
instance (r : Runner) : Decidable r.attended := inferInstanceAs (Decidable (_ ∨ _))
instance (r : Runner) : Decidable r.quiet := inferInstanceAs (Decidable (¬_ ∧ _))
instance (r : Runner) : Decidable r.stranded := inferInstanceAs (Decidable (_ ∧ _ ∧ _))

end Runner

/-- A row is queued, or left in the queue, on a live connection only if a drain is to come. -/
def Attended (r : Runner) : Event → Prop
  | .enqueue => r.connected → r.attended
  | .drainCall false => r.connected → r.scheduled
  | _ => True

instance (r : Runner) : ∀ e, Decidable (Attended r e)
  | .enqueue => inferInstanceAs (Decidable (r.connected → r.attended))
  | .drainCall false => inferInstanceAs (Decidable (r.connected → r.scheduled))
  | .drainCall true => .isTrue trivial
  | .publish .. | .checkPending | .gate | .call _ | .runForever | .onConnect _ | .onDisconnect
  | .startThread | .acquire | .fetch | .drainGate | .delete | .release | .crash => .isTrue trivial

/-- Only a client calls back, and a backlog on a live connection is attended to. -/
structure Watched (r : Runner) : Prop where
  client : r.connected → r.client
  backlog : r.connected → r.outbox.rows ≠ [] → r.attended

theorem Watched.start : Watched start := ⟨nofun, nofun⟩

theorem Watched.publishes {r s : Runner} {e : Event} (h : Watched r) (hattended : Attended r e)
    (hstep : Publishes r e s) : Watched s := by
  cases hstep with
  | enqueue henqueuing => exact ⟨h.client, fun hconnected _ => hattended hconnected⟩
  | _ => exact ⟨h.client, h.backlog⟩

theorem Watched.connects {r s : Runner} {e : Event} (h : Watched r) (hstep : Connects r e s) :
    Watched s := by
  cases hstep with
  | runForever => exact ⟨fun _ => rfl, h.backlog⟩
  | connack => exact h
  | connected hclient => exact ⟨fun _ => hclient, fun _ _ => .inl (.inl (Nat.succ_pos _))⟩
  | disconnected => exact ⟨nofun, nofun⟩
  | startThread => exact ⟨h.client, fun _ _ => .inl (.inr (Nat.succ_pos _))⟩

theorem attended_drainAt (r : Runner) (sent : Nat) {stage : Stage} (h : stage ≠ .returning) :
    (r.drainAt sent stage).attended :=
  .inr ⟨⟨stage, sent⟩, rfl, h⟩

theorem Stage.loop_ne_returning (rows : List (Row Prediction)) : Stage.loop rows ≠ .returning := by
  cases rows <;> nofun

theorem Watched.drains {r s : Runner} {e : Event} (h : Watched r) (hattended : Attended r e)
    (hstep : Drains r e s) : Watched s := by
  cases hstep with
  | acquire hwaiting hnone => exact ⟨h.client, fun _ _ => .inr ⟨_, rfl, nofun⟩⟩
  | drained hfetching hempty => exact ⟨h.client, fun _ hrows => absurd hempty hrows⟩
  | fetched hfetching hrows hprefix =>
    exact ⟨h.client, fun _ _ => attended_drainAt r _ (Stage.loop_ne_returning _)⟩
  | online hgating honline => exact ⟨h.client, fun _ _ => attended_drainAt r _ nofun⟩
  | offline hgating hoffline =>
    -- `_send` has found no connection, so there is none to be stranded on
    refine ⟨h.client, fun hconnected _ => absurd ?_ hoffline⟩
    have hclient := h.client hconnected
    have hconnected : r.connected := hconnected
    simp [Runner.online, hclient, hconnected]
  | sent hcalling => exact ⟨h.client, fun _ _ => .inr ⟨_, rfl, nofun⟩⟩
  | refused hcalling => exact ⟨h.client, fun hconnected _ => .inl (hattended hconnected)⟩
  | delete hdeleting => exact ⟨h.client, fun _ _ => .inr ⟨_, rfl, Stage.loop_ne_returning _⟩⟩
  | @release sent hreturning =>
    refine ⟨h.client, fun hconnected hrows => .inl ?_⟩
    rcases h.backlog hconnected hrows with hscheduled | ⟨d, hd, hstage⟩
    · exact hscheduled
    · obtain rfl := Option.some.inj (hreturning.symm.trans hd)
      exact absurd rfl hstage

theorem Watched.step {r s : Runner} {e : Event} (h : Watched r) (hattended : Attended r e)
    (hstep : Fires step r e s) : Watched s := by
  cases steps_of_step hstep with
  | publisher hp => exact h.publishes hattended hp
  | connection hc => exact h.connects hc
  | drain hd => exact h.drains hattended hd
  | crash he hs =>
    subst hs
    exact ⟨nofun, nofun⟩

/-- In every run whose steps are all attended to, a connected runner at rest has an empty outbox. -/
theorem backlog_attended {es : List Event} {s : Runner}
    (h : Run (Guarded (Fires step) Attended) start es s) : ¬s.stranded := by
  have hwatched : Watched s := by
    refine h.guarded .start ?_
    intro r e t hr hattended hstep
    exact hr.step hattended hstep
  rintro ⟨hconnected, ⟨hscheduled, hdrain, -⟩, hrows⟩
  rcases hwatched.backlog hconnected hrows with hs | ⟨d, hd, -⟩
  · exact hscheduled hs
  · rw [hdrain] at hd
    cases hd

/-- A prediction is queued offline and replayed once the broker is there. -/
def reconnects : List Event :=
  [.publish "twinvoice/pred/cnc-01" [123, 125], .checkPending, .gate, .enqueue, .runForever,
    .onConnect false, .startThread, .acquire, .fetch, .drainGate, .drainCall true, .delete, .fetch,
    .release]

theorem backlog_attended_reconnects :
    ∃ s, Run (Guarded (Fires step) Attended) start reconnects s ∧ s.connected ∧ ¬s.stranded := by
  have hconnected : (replay (guarded step Attended) start reconnects).map Runner.connected =
      some true := by decide
  obtain ⟨s, hs, hlive⟩ := Option.map_eq_some_iff.mp hconnected
  exact ⟨s, run_of_guarded hs, hlive, backlog_attended (run_of_guarded hs)⟩

/-- The broker refuses a prediction after the drain of its connection has ended. -/
def refused : List Event :=
  [.runForever, .onConnect false, .startThread, .acquire, .fetch, .release,
    .publish "twinvoice/pred/cnc-01" [123, 125], .checkPending, .gate, .call false, .enqueue]

theorem refused_is_stranded : ¬∀ es s, Run (Fires step) start es s → ¬s.stranded := by
  intro h
  have hlast : (replay step start refused).map (fun s => decide s.stranded) = some true := by decide
  obtain ⟨s, hs, hstranded⟩ := Option.map_eq_some_iff.mp hlast
  exact h refused s (run_of_replay hs) (of_decide_eq_true hstranded)

/-! ## The condition is exact

Once a backlog on a live connection is unattended, the threads that are left
only have to run to their end. -/

theorem enqueue_strands {r : Runner} {p : Prediction} (henqueuing : r.publisher = .enqueuing p)
    (hconnected : r.connected) (hscheduled : ¬r.scheduled) (hdrain : r.drain = none) :
    Fires step r .enqueue (r.queueUp p) ∧ (r.queueUp p).stranded := by
  refine ⟨by simp [Fires, step, publishStep, henqueuing], hconnected, ⟨hscheduled, hdrain, rfl⟩, ?_⟩
  simp [Runner.queueUp, StoreAndForward.enqueue]

theorem publisher_strands {r : Runner} (h : Coupled r) (hconnected : r.connected)
    (hrows : r.outbox.rows ≠ []) (hscheduled : ¬r.scheduled) (hdrain : r.drain = none) :
    ∃ fs t, Run (Fires step) r fs t ∧ t.stranded := by
  cases hp : r.publisher with
  | idle => exact ⟨[], r, .nil, hconnected, ⟨hscheduled, hdrain, hp⟩, hrows⟩
  | checking p =>
    let found : Runner := { r with publisher := .enqueuing p }
    have hfound : Fires step r .checkPending found := by
      simp [Fires, step, publishStep, StoreAndForward.pending, hp, hrows, found]
    obtain ⟨henqueue, hstranded⟩ :=
      enqueue_strands (r := found) rfl hconnected hscheduled hdrain
    exact ⟨_, _, (Run.nil.snoc hfound).snoc henqueue, hstranded⟩
  | gating p => exact absurd (h.direct p (.inl hp)) hrows
  | calling p => exact absurd (h.direct p (.inr hp)) hrows
  | enqueuing p =>
    obtain ⟨henqueue, hstranded⟩ := enqueue_strands hp hconnected hscheduled hdrain
    exact ⟨_, _, Run.nil.snoc henqueue, hstranded⟩

theorem backlog_strands {s : Runner} (hcoupled : Coupled s) (hconnected : s.connected)
    (hrows : s.outbox.rows ≠ []) (hnone : ¬s.attended) :
    ∃ fs t, Run (Fires step) s fs t ∧ t.stranded := by
  have hscheduled : ¬s.scheduled := fun hs => hnone (.inl hs)
  cases hd : s.drain with
  | none => exact publisher_strands hcoupled hconnected hrows hscheduled hd
  | some d =>
    have hstage : d.stage = .returning := by
      by_contra hlooking
      exact hnone (.inr ⟨d, hd, hlooking⟩)
    obtain ⟨stage, sent⟩ := d
    obtain rfl : stage = .returning := hstage
    let released : Runner := { s with drain := none }
    have hrelease : Fires step s .release released := by
      simp [Fires, step, drainStep, hd, released]
    have hreleased : Coupled released := hcoupled.step hrelease
    obtain ⟨fs, t, hrun, hstranded⟩ :=
      publisher_strands hreleased hconnected hrows hscheduled rfl
    exact ⟨_, t, hrun.cons hrelease, hstranded⟩

/-- A step that is not attended to leads to a stranded backlog. -/
theorem unattended_strands {es : List Event} {s t : Runner} {e : Event}
    (h : Run (Fires step) start es s) (hstep : Fires step s e t) (hattended : ¬Attended s e) :
    ∃ fs u, Run (Fires step) t fs u ∧ u.stranded := by
  have hcoupled : Coupled s := (relay_simulates.run Coupled.start h).1
  have hafter : Coupled t := hcoupled.step hstep
  cases e with
  | enqueue =>
    obtain ⟨hconnected, hnone⟩ := Classical.not_imp.mp hattended
    have hpublish : publishStep s .enqueue = some t := hstep
    cases publishes_of_step hpublish with
    | enqueue henqueuing =>
      refine backlog_strands hafter hconnected ?_ hnone
      simp [Runner.queueUp, StoreAndForward.enqueue]
  | drainCall ok =>
    cases ok with
    | true => exact absurd trivial hattended
    | false =>
      obtain ⟨hconnected, hscheduled⟩ := Classical.not_imp.mp hattended
      have hdrain : drainStep s (.drainCall false) = some t := hstep
      cases drains_of_step hdrain with
      | @refused sent row rest hcalling =>
        -- the refused row is still there, and the drain that was refused ends
        obtain ⟨later, hrows, -⟩ := oldest_after_delete (hcoupled.batch _ hcalling)
        refine backlog_strands hafter hconnected ?_ ?_
        · simp [Runner.drainAt, hrows]
        · rintro (hs | ⟨d, hd, hstage⟩)
          · exact hscheduled hs
          · cases hd
            exact hstage rfl
  | _ => exact absurd trivial hattended

end TwinVoice.Edge
