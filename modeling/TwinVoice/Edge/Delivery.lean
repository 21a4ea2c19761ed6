import TwinVoice.Edge.Runner
import TwinVoice.Lib.Relay

/-! # The runner is a relay

Seen from the broker and the outbox, a run of the runner's threads is a run of
a relay that stores and forwards. What couples the two paths is that
`publish` sends only past an outbox that it has found empty, and that nobody
else fills it; and that the rows a drain still holds are the oldest ones. -/

namespace TwinVoice.Edge

open TwinVoice.Lib TwinVoice.Lib.Transition

/-- What the direct path and the drain rely on between their statements. -/
structure Coupled (r : Runner) : Prop where
  direct : ∀ p, r.publisher = .gating p ∨ r.publisher = .calling p → r.outbox.rows = []
  batch : ∀ d, r.drain = some d → d.stage.batch <+: r.outbox.rows

theorem Coupled.start : Coupled start := ⟨by simp [Edge.start], by simp [Edge.start]⟩

/-- A drain that deletes the first of its rows keeps the others, which are now the oldest. -/
theorem oldest_after_delete {box : StoreAndForward} {row : Row Prediction}
    {rest : List (Row Prediction)} (h : row :: rest <+: box.rows) :
    ∃ later, box.rows = row :: (rest ++ later) ∧ (box.delete row.id).rows = rest ++ later := by
  obtain ⟨later, hlater⟩ := h
  exact ⟨later, hlater.symm, Sequence.rows_delete_oldest hlater.symm⟩

theorem Coupled.publishes {r s : Runner} {e : Event} (h : Coupled r) (hstep : Publishes r e s) :
    Coupled s := by
  cases hstep with
  | publish topic payload hidle => exact { h with direct := by simp [Runner.beginPublish] }
  | empty hchecking hempty => exact { h with direct := fun _ _ => hempty }
  | backlog hchecking hrows => exact { h with direct := by simp }
  | @online p hgating honline => exact { h with direct := fun _ _ => h.direct p (.inl hgating) }
  | offline hgating hoffline => exact { h with direct := by simp }
  | sent hcalling => exact { h with direct := by simp [Runner.sendNow] }
  | refused hcalling => exact { h with direct := by simp }
  | enqueue henqueuing =>
    refine ⟨by simp [Runner.queueUp], ?_⟩
    intro d hd
    exact (h.batch d hd).trans (List.prefix_append _ _)

theorem Coupled.connects {r s : Runner} {e : Event} (h : Coupled r) (hstep : Connects r e s) :
    Coupled s := by
  cases hstep with
  | runForever => exact { h with }
  | connack => exact h
  | connected => exact { h with }
  | disconnected => exact { h with }
  | startThread => exact { h with }

theorem Coupled.drains {r s : Runner} {e : Event} (h : Coupled r) (hstep : Drains r e s) :
    Coupled s := by
  cases hstep with
  | acquire hwaiting hnone => exact { h with batch := by simp }
  | drained hfetching hempty => exact { h with batch := by simp [Runner.drainAt] }
  | fetched hfetching hrows hprefix =>
    refine { h with batch := ?_ }
    rintro d ⟨⟩
    rwa [Stage.batch_loop]
  | online hgating honline =>
    have hbatch := h.batch _ hgating
    refine { h with batch := ?_ }
    rintro d ⟨⟩
    exact hbatch
  | offline hgating hoffline => exact { h with batch := by simp [Runner.drainAt] }
  | sent hcalling =>
    have hbatch := h.batch _ hcalling
    refine { h with batch := ?_ }
    rintro d ⟨⟩
    exact hbatch
  | refused hcalling => exact { h with batch := by simp [Runner.drainAt] }
  | @delete sent row rest hdeleting =>
    obtain ⟨later, hrows, hdeleted⟩ := oldest_after_delete (h.batch _ hdeleting)
    refine ⟨?_, ?_⟩
    · intro p hp
      have hempty := h.direct p hp
      rw [hrows] at hempty
      cases hempty
    · rintro d ⟨⟩
      show (Stage.loop rest).batch <+: (r.outbox.delete row.id).rows
      rw [hdeleted, Stage.batch_loop]
      exact List.prefix_append _ _
  | release hreturning => exact { h with batch := by simp }

theorem Coupled.step {r s : Runner} {e : Event} (h : Coupled r) (hstep : Fires step r e s) :
    Coupled s := by
  cases steps_of_step hstep with
  | publisher hp => exact h.publishes hp
  | connection hc => exact h.connects hc
  | drain hd => exact h.drains hd
  | crash he hs =>
    subst hs
    exact ⟨by simp [Runner.crash], by simp [Runner.crash]⟩

/-! ## The relay in the runner -/

def relay (r : Runner) : Relay Prediction where
  offered := r.published
  held := r.publisher.current
  settled := r.returned.map Prod.fst
  queue := r.queue
  forwarded := r.handed
  flying := r.inFlight
  repeated := r.repeated
  cut := r.cut

/-- The statements that the broker or the outbox sees. -/
def seen : Event → Option Relay.Label
  | .publish _ _ => some .offer
  | .call true => some .forward
  | .enqueue => some .store
  | .drainCall true => some .replay
  | .delete => some .retire
  | .crash => some .crash
  | _ => none

theorem head_of_batch {r : Runner} (h : Coupled r) {d : Drain} (hd : r.drain = some d)
    {row : Row Prediction} {rest : List (Row Prediction)} (hbatch : d.stage.batch = row :: rest) :
    ∃ later, r.queue = row.value :: later ∧ (r.outbox.delete row.id).values = later := by
  have hprefix := h.batch d hd
  rw [hbatch] at hprefix
  obtain ⟨later, hrows, hdeleted⟩ := oldest_after_delete hprefix
  refine ⟨(rest ++ later).map Row.value, ?_, ?_⟩
  · simp [Runner.queue, Sequence.values, hrows]
  · simp [Sequence.values, hdeleted]

theorem relay_publishes {r s : Runner} {e : Event} (h : Coupled r) (hstep : Publishes r e s) :
    match seen e with
    | none => relay s = relay r
    | some l => Relay.Step Prediction.number (relay r) l (relay s) := by
  cases hstep with
  | publish topic payload hidle =>
    have hfree : (relay r).held = none := by simp [relay, hidle]
    exact Relay.Step.offer (Prediction.mk r.published.length topic payload) hfree rfl
  | empty hchecking hempty => simp [seen, relay, hchecking, Runner.queue, Runner.inFlight]
  | backlog hchecking hrows => simp [seen, relay, hchecking, Runner.queue, Runner.inFlight]
  | online hgating honline => simp [seen, relay, hgating, Runner.queue, Runner.inFlight]
  | offline hgating hoffline => simp [seen, relay, hgating, Runner.queue, Runner.inFlight]
  | @sent p hcalling =>
    have hheld : (relay r).held = some p := by simp [relay, hcalling]
    have hempty : (relay r).queue = [] := Sequence.values_eq_nil.mpr (h.direct p (.inr hcalling))
    have hrelay : relay (r.sendNow p) = { relay r with
        held := none, settled := (relay r).settled ++ [p], forwarded := (relay r).forwarded ++ [p] } := by
      simp [relay, Runner.sendNow, Runner.queue, Runner.inFlight]
    exact hrelay ▸ .forward hheld hempty
  | refused hcalling => simp [seen, relay, hcalling, Runner.queue, Runner.inFlight]
  | @enqueue p henqueuing =>
    have hheld : (relay r).held = some p := by simp [relay, henqueuing]
    have hrelay : relay (r.queueUp p) = { relay r with
        held := none, settled := (relay r).settled ++ [p], queue := (relay r).queue ++ [p] } := by
      simp [relay, Runner.queueUp, StoreAndForward.enqueue, Runner.queue,
        Runner.inFlight]
    exact hrelay ▸ .store hheld

theorem relay_connects {r s : Runner} {e : Event} (hstep : Connects r e s) :
    seen e = none ∧ relay s = relay r := by
  cases hstep <;> exact ⟨rfl, rfl⟩

theorem relay_drains {r s : Runner} {e : Event} (h : Coupled r) (hstep : Drains r e s) :
    match seen e with
    | none => relay s = relay r
    | some l => Relay.Step Prediction.number (relay r) l (relay s) := by
  cases hstep with
  | acquire hwaiting hnone =>
    simp [seen, relay, Runner.queue, Runner.inFlight, hnone]
  | drained hfetching hempty =>
    simp [seen, relay, Runner.drainAt, Runner.queue, Runner.inFlight, hfetching]
  | @fetched sent rows hfetching hrows hprefix =>
    cases rows <;>
      simp [seen, relay, Runner.drainAt, Runner.queue, Runner.inFlight, Stage.loop, hfetching]
  | online hgating honline =>
    simp [seen, relay, Runner.drainAt, Runner.queue, Runner.inFlight, hgating]
  | offline hgating hoffline =>
    simp [seen, relay, Runner.drainAt, Runner.queue, Runner.inFlight, hgating]
  | @sent sent row rest hcalling =>
    obtain ⟨later, hqueue, -⟩ := head_of_batch h hcalling rfl
    have hflying : (relay r).flying = none := by
      simp [relay, Runner.inFlight, hcalling]
    exact .replay hqueue hflying
  | refused hcalling =>
    simp [seen, relay, Runner.drainAt, Runner.queue, Runner.inFlight, hcalling]
  | @delete sent row rest hdeleting =>
    obtain ⟨later, hqueue, hdeleted⟩ := head_of_batch h hdeleting rfl
    have hflying : (relay r).flying = some row.value := by
      simp [relay, Runner.inFlight, hdeleting]
    have hrelay : relay (r.deleteRow sent row rest) =
        { relay r with queue := later, flying := none } := by
      cases rest <;>
        simp [relay, Runner.deleteRow, Runner.queue, Runner.inFlight, Stage.loop, hdeleted]
    exact hrelay ▸ .retire hqueue hflying
  | release hreturning =>
    simp [seen, relay, Runner.queue, Runner.inFlight, hreturning]

theorem relay_step {r s : Runner} {e : Event} (h : Coupled r) (hstep : Fires step r e s) :
    match seen e with
    | none => relay s = relay r
    | some l => Relay.Step Prediction.number (relay r) l (relay s) := by
  cases steps_of_step hstep with
  | publisher hp => exact relay_publishes h hp
  | connection hc =>
    obtain ⟨hseen, hrelay⟩ := relay_connects hc
    rw [hseen]
    exact hrelay
  | drain hd => exact relay_drains h hd
  | crash he hs =>
    subst he hs
    exact .crash

/-- The runner refines the relay. -/
theorem relay_simulates :
    Simulates (Fires step) (Relay.Step Prediction.number) relay seen Coupled where
  keeps := fun _ _ _ h hstep => h.step hstep
  shown := by
    intro r e s l hseen h hstep
    have hrelay := relay_step h hstep
    rwa [hseen] at hrelay
  hidden := by
    intro r e s hseen h hstep
    have hrelay := relay_step h hstep
    rwa [hseen] at hrelay

theorem count_seen_crash (es : List Event) : (es.filterMap seen).count .crash = es.count .crash := by
  induction es with
  | nil => rfl
  | cons e es ih =>
    rw [List.filterMap_cons, List.count_cons]
    cases e with
    | crash => simp [seen, ih]
    | call ok => cases ok <;> simp [seen, ih]
    | drainCall ok => cases ok <;> simp [seen, ih]
    | _ => simp [seen, ih]

theorem relay_faithful {es : List Event} {s : Runner} (h : Run (Fires step) start es s) :
    Relay.Faithful Prediction.number (es.filterMap seen) (relay s) :=
  Relay.faithful_run (relay_simulates.run Coupled.start h).2

/-! ## Delivery -/

/-- In every run the predictions are first handed over in the order in which they were
published; each is handed over or in the outbox, unless it is being published or its
`publish` was cut off by a crash; nothing else is handed over; a prediction is repeated at most
once for each crash that found it in flight, which is one at most for each crash. -/
theorem delivered_in_order {es : List Event} {s : Runner} (h : Run (Fires step) start es s) :
    s.published.map Prediction.number = List.range s.published.length ∧
    FirstsAscend Prediction.number s.handed ∧
    (∀ p ∈ s.published, p ∈ s.handed ∨ p ∈ s.queue ∨ s.publisher.current = some p ∨ p ∈ s.cut) ∧
    (∀ p sent, (p, sent) ∈ s.returned → p ∈ s.handed ∨ p ∈ s.queue) ∧
    (∀ p ∈ s.handed, p ∈ s.published) ∧
    (∀ p, s.handed.count p ≤ s.repeated.count p + 1) ∧
    s.repeated.length ≤ es.count .crash ∧ s.cut.length ≤ es.count .crash ∧
    (.crash ∉ es → s.handed.Nodup) := by
  have hrelay := relay_faithful h
  have hkept : ∀ p ∈ s.returned.map Prod.fst, p ∈ s.handed ∨ p ∈ s.queue := hrelay.kept.kept
  refine ⟨hrelay.ordered.numbered, hrelay.ordered.firsts, ?_, ?_, hrelay.ordered.genuine,
    hrelay.bounded.once, ?_, ?_, ?_⟩
  · intro p hp
    rcases hrelay.kept.accounted p hp with hsettled | hheld | hcut
    · rcases hkept p hsettled with hhanded | hqueue
      · exact .inl hhanded
      · exact .inr (.inl hqueue)
    · exact .inr (.inr (.inl hheld))
    · exact .inr (.inr (.inr hcut))
  · exact fun p sent hreturned => hkept p (List.mem_map_of_mem (f := Prod.fst) hreturned)
  · exact count_seen_crash es ▸ hrelay.repeats
  · exact count_seen_crash es ▸ hrelay.cuts
  · intro hcrash
    have hzero : (es.filterMap seen).count .crash = 0 := by
      rw [count_seen_crash]
      exact List.count_eq_zero.mpr hcrash
    exact (hrelay.nodup (List.count_eq_zero.mp hzero)).2

/-- Two predictions are queued offline; the power fails after the first one was replayed and
before its row was deleted. -/
def powerCut : List Event :=
  [.publish "twinvoice/pred/cnc-01" [123, 125], .checkPending, .gate, .enqueue,
    .publish "twinvoice/pred/cnc-02" [123, 125], .checkPending, .enqueue,
    .runForever, .onConnect false, .startThread, .acquire, .fetch, .drainGate, .drainCall true, .crash,
    .runForever, .onConnect false, .startThread, .acquire, .fetch,
    .drainGate, .drainCall true, .delete, .drainGate, .drainCall true, .delete]

theorem delivered_after_power_cut :
    ∃ s, Run (Fires step) start powerCut s ∧ s.handed.map Prediction.number = [0, 0, 1] ∧
      FirstsAscend Prediction.number s.handed ∧ s.repeated.length ≤ 1 := by
  have hnumbers : (replay step start powerCut).map (fun s => s.handed.map Prediction.number) =
      some [0, 0, 1] := by decide
  obtain ⟨s, hs, hhanded⟩ := Option.map_eq_some_iff.mp hnumbers
  obtain ⟨-, hfirsts, -, -, -, -, hrepeats, -⟩ := delivered_in_order (run_of_replay hs)
  exact ⟨s, run_of_replay hs, hhanded, hfirsts, hrepeats⟩

end TwinVoice.Edge
