import TwinVoice.Edge.Delivery
import TwinVoice.Ingest.ExactlyOnce

/-! # From the edge to the tables of the platform

The runner publishes what a model has scored, the broker delivers what it was
handed, and the consumer stores it. The broker may deliver a prediction at any
time, out of order and again, and the power of the edge may fail between any
two statements. -/

namespace TwinVoice.Edge.Uplink

open TwinVoice.Lib TwinVoice.Lib.Transition
open TwinVoice.Ingest.EdgePredictions (EdgePrediction Platform State Delivery Added DistinctIds Unrecorded predTopic
  processEdgePrediction receive kept added_receive sample sampleText cell cell_text cell_text' nothing)

/-! ## The two ends -/

/-- The edge and the consumer, and after them what has happened so far. -/
structure Link (Card : Type) where
  runner : Runner
  consumer : State Card
  /-- every message that `publish` was called with -/
  scored : List EdgePrediction
  /-- every prediction that the broker has delivered -/
  delivered : List Prediction

inductive Event where
  | publish (m : EdgePrediction)
  | runner (e : Edge.Event)
  /-- The broker delivers the prediction that it was handed at this place. -/
  | deliver (k : Nat)

def start {Card : Type} (s : State Card) : Link Card := ⟨Edge.start, s, [], []⟩

section
variable {Card : Type} (p : Platform Card) (dump : EdgePrediction → List UInt8)

/-- `publish` of the runner, where `dump` is `model_dump_json().encode("utf-8")`. -/
def publishOf (m : EdgePrediction) : Edge.Event := .publish (predTopic m.assetCode) (dump m)

def consume (s : State Card) (q : Prediction) : State Card := processEdgePrediction p s q.topic ⟨q.payload.toArray⟩

def step (u : Link Card) : Event → Option (Link Card)
  | .publish m =>
    (Edge.step u.runner (publishOf dump m)).map fun r => { u with runner := r, scored := u.scored ++ [m] }
  | .runner (.publish ..) => none
  | .runner e => (Edge.step u.runner e).map fun r => { u with runner := r }
  | .deliver k =>
    u.runner.handed[k]?.map fun q => { u with consumer := consume p u.consumer q, delivered := u.delivered ++ [q] }

/-- What the runner sees of an event. -/
def shown : Event → Option Edge.Event
  | .publish m => some (publishOf dump m)
  | .runner e => some e
  | .deliver _ => none

/-- Everything that a step can be. -/
inductive Steps (u : Link Card) : Event → Link Card → Prop
  | publish (m) {r} : Edge.step u.runner (publishOf dump m) = some r →
      Steps u (.publish m) { u with runner := r, scored := u.scored ++ [m] }
  | runner {e r} : (∀ topic payload, e ≠ .publish topic payload) → Edge.step u.runner e = some r →
      Steps u (.runner e) { u with runner := r }
  | deliver {k q} : u.runner.handed[k]? = some q →
      Steps u (.deliver k) { u with consumer := consume p u.consumer q, delivered := u.delivered ++ [q] }

end

section
variable {Card : Type} {p : Platform Card} {dump : EdgePrediction → List UInt8}

theorem step_runner (u : Link Card) {e : Edge.Event} (h : ∀ topic payload, e ≠ .publish topic payload) :
    step p dump u (.runner e) = (Edge.step u.runner e).map fun r => { u with runner := r } := by
  cases e with
  | publish topic payload => exact absurd rfl (h topic payload)
  | _ => rfl

theorem steps_of_step {u v : Link Card} {e : Event} (h : Fires (step p dump) u e v) : Steps p dump u e v := by
  have h : step p dump u e = some v := h
  cases e with
  | publish m =>
    obtain ⟨r, hr, rfl⟩ := Option.map_eq_some_iff.mp h
    exact .publish m hr
  | deliver k =>
    obtain ⟨q, hq, rfl⟩ := Option.map_eq_some_iff.mp h
    exact .deliver hq
  | runner e =>
    by_cases hpublish : ∃ topic payload, e = .publish topic payload
    · obtain ⟨topic, payload, rfl⟩ := hpublish
      cases h
    · have hother : ∀ topic payload, e ≠ .publish topic payload := fun topic payload he => hpublish ⟨topic, payload, he⟩
      rw [step_runner u hother] at h
      obtain ⟨r, hr, rfl⟩ := Option.map_eq_some_iff.mp h
      exact .runner hother hr

/-! ## What the runner did -/

theorem handed_step {r s : Runner} {e : Edge.Event} (h : Edge.step r e = some s) : r.handed ⊆ s.handed := by
  cases Edge.steps_of_step h with
  | publisher h => cases h <;> simp [Runner.beginPublish, Runner.sendNow, Runner.queueUp]
  | connection h => cases h <;> exact List.Subset.refl _
  | drain h => cases h <;> simp [Runner.drainAt, Runner.sendRow, Runner.deleteRow]
  | crash he hs => exact hs ▸ List.Subset.refl _

theorem published_step {r s : Runner} {e : Edge.Event} (h : Edge.step r e = some s)
    (hother : ∀ topic payload, e ≠ .publish topic payload) : s.published = r.published := by
  cases Edge.steps_of_step h with
  | publisher h =>
    cases h with
    | publish topic payload => exact absurd rfl (hother topic payload)
    | _ => rfl
  | connection h => cases h <;> rfl
  | drain h => cases h <;> rfl
  | crash he hs => exact hs ▸ rfl

theorem published_publish {r s : Runner} {topic : String} {payload : List UInt8}
    (h : Edge.step r (.publish topic payload) = some s) :
    s.published = r.published ++ [⟨r.published.length, topic, payload⟩] := by
  cases Edge.steps_of_step h with
  | publisher h => cases h; rfl
  | connection h => cases h
  | drain h => cases h
  | crash he hs => cases he

/-- The prediction carries the message. -/
def Carries (dump : EdgePrediction → List UInt8) (q : Prediction) (m : EdgePrediction) : Prop :=
  q.topic = predTopic m.assetCode ∧ q.payload = dump m

/-- What the two ends have done. -/
structure Tracks (p : Platform Card) (dump : EdgePrediction → List UInt8) (s : State Card) (u : Link Card) : Prop where
  published : List.Forall₂ (Carries dump) u.runner.published u.scored
  delivered : u.delivered ⊆ u.runner.handed
  consumer : u.consumer = u.delivered.foldl (consume p) s

theorem Tracks.step {s : State Card} {u v : Link Card} {e : Event} (h : Tracks p dump s u)
    (hstep : Fires (step p dump) u e v) : Tracks p dump s v := by
  cases steps_of_step hstep with
  | publish m hr =>
    refine ⟨?_, fun q hq => handed_step hr (h.delivered hq), h.consumer⟩
    rw [published_publish hr]
    exact List.rel_append h.published (.cons ⟨rfl, rfl⟩ .nil)
  | runner hother hr =>
    refine ⟨?_, fun q hq => handed_step hr (h.delivered hq), h.consumer⟩
    rw [published_step hr hother]
    exact h.published
  | deliver hq =>
    refine ⟨h.published, ?_, ?_⟩
    · exact List.append_subset.mpr ⟨h.delivered, List.cons_subset.mpr ⟨List.mem_of_getElem? hq, List.nil_subset _⟩⟩
    · rw [List.foldl_append, ← h.consumer]
      rfl

/-- Seen from the runner, the broker and the consumer are not there. -/
theorem runner_simulates :
    Simulates (Fires (step p dump)) (Fires Edge.step) Link.runner (shown dump) fun _ => True where
  keeps := fun _ _ _ _ _ => trivial
  shown := by
    intro u e v l hl _ hstep
    cases steps_of_step hstep with
    | publish m hr =>
      cases hl
      exact hr
    | runner _ hr =>
      cases hl
      exact hr
    | deliver => cases hl
  hidden := by
    intro u e v hl _ hstep
    cases steps_of_step hstep with
    | publish => cases hl
    | runner => cases hl
    | deliver => rfl

/-! ## What was delivered -/

/-- What carries messages that are read back is delivered as these messages. -/
theorem exists_deliveries {ms : List EdgePrediction} (hread : ∀ m ∈ ms, p.validate ⟨(dump m).toArray⟩ = some m)
    {qs : List Prediction} (hqs : ∀ q ∈ qs, ∃ m ∈ ms, Carries dump q m) (s : State Card) :
    ∃ ds : List (Delivery p), qs.foldl (consume p) s = ds.foldl (receive p) s ∧
      List.Forall₂ (Carries dump) qs (ds.map Delivery.message) ∧ ∀ m ∈ ds.map Delivery.message, m ∈ ms := by
  induction qs generalizing s with
  | nil => exact ⟨[], rfl, .nil, by simp⟩
  | cons q qs ih =>
    obtain ⟨⟨m, hm, hcarries⟩, hrest⟩ := List.forall_mem_cons.mp hqs
    obtain ⟨ds, hfold, hcarried, hmem⟩ := ih hrest (consume p s q)
    let d : Delivery p := ⟨⟨(dump m).toArray⟩, m, hread m hm⟩
    have hconsume : consume p s q = receive p s d := by
      rw [consume, hcarries.1, hcarries.2]
      rfl
    refine ⟨d :: ds, ?_, ?_, ?_⟩
    · rw [List.foldl_cons, List.foldl_cons, hfold, hconsume]
    · exact .cons hcarries hcarried
    · exact List.forall_mem_cons.mpr ⟨hm, hmem⟩

theorem carried_of_mem {qs : List Prediction} {ms : List EdgePrediction} (h : List.Forall₂ (Carries dump) qs ms)
    {q : Prediction} (hq : q ∈ qs) : ∃ m ∈ ms, Carries dump q m := by
  obtain ⟨k, hk, rfl⟩ := List.mem_iff_getElem.mp hq
  have hk' : k < ms.length := h.length_eq ▸ hk
  exact ⟨ms[k], List.getElem_mem hk', h.get hk hk'⟩

/-- The message at a place is carried by the prediction of this number. -/
theorem carries_getElem {qs : List Prediction} {ms : List EdgePrediction} (h : List.Forall₂ (Carries dump) qs ms)
    (hnumbers : qs.map Prediction.number = List.range qs.length) {k : Nat} {m : EdgePrediction} (hm : ms[k]? = some m) :
    ∃ q ∈ qs, q.number = k ∧ Carries dump q m := by
  obtain ⟨hk', rfl⟩ := List.getElem?_eq_some_iff.mp hm
  have hk : k < qs.length := h.length_eq ▸ hk'
  refine ⟨qs[k], List.getElem_mem hk, ?_, h.get hk hk'⟩
  have hnumber : (qs.map Prediction.number)[k]? = some k := by
    rw [hnumbers]
    exact List.getElem?_range hk
  rw [List.getElem?_map, List.getElem?_eq_getElem hk] at hnumber
  exact Option.some.inj hnumber

/-- Whatever the order of the steps, what the platform has stored are messages that the edge has scored, each once;
and when the edge has nothing left to send and all that it sent has been delivered, they are all of those that can be
kept, but for the few of which a power cut ended the `publish`. -/
theorem stored_once {s : State Card} {es : List Event} {u : Link Card} (h : Run (Fires (step p dump)) (start s) es u)
    (hread : ∀ m ∈ u.scored, p.validate ⟨(dump m).toArray⟩ = some m) (hdistinct : DistinctIds p u.scored)
    (hnew : Unrecorded p s.db u.scored) :
    ∃ messages records, Added p s messages u.consumer records ∧ messages.Nodup ∧
      (∀ m ∈ messages, m ∈ u.scored ∧ (kept p m).isSome = true) ∧
      (u.runner.publisher.current = none → u.runner.queue = [] → u.runner.handed ⊆ u.delivered →
        ∀ k m, u.scored[k]? = some m → (kept p m).isSome = true → k ∉ u.runner.cut.map Prediction.number →
          m ∈ messages) ∧
      u.runner.cut.length ≤ (es.filterMap (shown dump)).count .crash := by
  have htracks : Tracks p dump s u :=
    Run.invariant (fun _ => Tracks p dump s) ⟨.nil, List.Subset.refl _, rfl⟩ (fun _ _ _ _ => Tracks.step) h
  obtain ⟨hnumbers, -, haccounted, -, hgenuine, -, -, hcuts, -⟩ := delivered_in_order (runner_simulates.run trivial h).2
  have hcarried : ∀ q ∈ u.delivered, ∃ m ∈ u.scored, Carries dump q m := fun q hq =>
    carried_of_mem htracks.published (hgenuine q (htracks.delivered hq))
  obtain ⟨ds, hfold, hdelivered, hscored⟩ := exists_deliveries hread hcarried s
  have hdistinct' : DistinctIds p (ds.map Delivery.message) := fun m hm m' hm' =>
    hdistinct m (hscored m hm) m' (hscored m' hm')
  have hnew' : Unrecorded p s.db (ds.map Delivery.message) := fun m hm => hnew m (hscored m hm)
  obtain ⟨messages, hnodup, hmem, records, hadded⟩ := added_receive hdistinct' hnew'
  refine ⟨messages, records, ?_, hnodup, fun m hm => ⟨hscored m ((hmem m).mp hm).1, ((hmem m).mp hm).2⟩, ?_, hcuts⟩
  · rw [htracks.consumer, hfold]
    exact hadded
  · intro hidle hempty hall k m hm hkept huncut
    obtain ⟨q, hq, hnumber, hcarries⟩ := carries_getElem htracks.published hnumbers hm
    have hhanded : q ∈ u.runner.handed := by
      rcases haccounted q hq with hhanded | hqueue | hcurrent | hcut
      · exact hhanded
      · rw [hempty] at hqueue
        cases hqueue
      · rw [hidle] at hcurrent
        cases hcurrent
      · exact absurd (hnumber ▸ List.mem_map_of_mem hcut) huncut
    obtain ⟨m', hm', hcarries'⟩ := carried_of_mem hdelivered (hall hhanded)
    -- both are what the payload is read as
    have hsame : m' = m := by
      have hread' := hread m' (hscored m' hm')
      rw [← hcarries'.2, hcarries.2, hread m (List.mem_of_getElem? hm)] at hread'
      exact (Option.some.inj hread').symm
    exact (hmem m).mpr ⟨hsame ▸ hm', hkept⟩

end

/-! Two predictions are queued offline, the power fails after the first was replayed, and the broker delivers what it
was handed in another order. -/

def powerCut (m m' : EdgePrediction) : List Event :=
  [.publish m, .runner .checkPending, .runner .gate, .runner .enqueue, .publish m', .runner .checkPending,
    .runner .enqueue, .runner .runForever, .runner (.onConnect false), .runner .startThread, .runner .acquire,
    .runner .fetch, .runner .drainGate, .runner (.drainCall true), .runner .crash, .runner .runForever,
    .runner (.onConnect false), .runner .startThread, .runner .acquire, .runner .fetch, .runner .drainGate,
    .runner (.drainCall true), .runner .delete, .runner .drainGate, .runner (.drainCall true), .runner .delete,
    .deliver 2, .deliver 0, .deliver 1, .deliver 2]

theorem run_powerCut {Card : Type} (p : Platform Card) (dump : EdgePrediction → List UInt8) (s : State Card)
    (m m' : EdgePrediction) :
    ∃ u, replay (step p dump) (start s) (powerCut m m') = some u ∧ u.scored = [m, m'] ∧
      u.runner.publisher.current = none ∧ u.runner.queue = [] ∧ u.runner.handed ⊆ u.delivered ∧ u.runner.cut = [] := by
  let q : Prediction := ⟨0, predTopic m.assetCode, dump m⟩
  let q' : Prediction := ⟨1, predTopic m'.assetCode, dump m'⟩
  have hdelivered : [q, q, q'] ⊆ [q', q, q, q'] := by simp
  exact ⟨_, rfl, rfl, rfl, rfl, hdelivered, rfl⟩

theorem stored_once_power_cut :
    let text := sampleText "00000000-0000-4000-8000-000000000001" "0.9"
      "\x7b\"feature\": \"spindle.vib_rms_mean\", \"value\": 3.0, \"contribution\": -9.0, \"rank\": 1\x7d"
    let text' := sampleText "00000000-0000-4000-8000-000000000002" "0.9" ""
    let m := sample "00000000-0000-4000-8000-000000000001" (some (.finite (9 / 10)))
      [{ feature := "spindle.vib_rms_mean", value := .finite 3, contribution := .finite (-9), rank := 1 }]
    let m' := sample "00000000-0000-4000-8000-000000000002" (some (.finite (9 / 10))) []
    let p := cell text text' m m'
    let dump := fun x : EdgePrediction => if x.id = m.id then text.data.toList else text'.data.toList
    ∃ u messages records, Run (Fires (step p dump)) (start nothing) (powerCut m m') u ∧
      Added p nothing messages u.consumer records ∧ messages.Nodup ∧ m ∈ messages ∧ m' ∈ messages := by
  intro text text' m m' p dump
  have hids : p.uuid m.id ≠ p.uuid m'.id := by
    decide +kernel
  have hid : m'.id ≠ m.id := fun h => hids (congrArg p.uuid h.symm)
  have hsize : text'.size ≠ text.size := by
    decide +kernel
  have hkept : (kept p m).isSome = true ∧ (kept p m').isSome = true := by
    decide +kernel
  have hread : ∀ x ∈ [m, m'], p.validate ⟨(dump x).toArray⟩ = some x := by
    refine List.forall_mem_cons.mpr ⟨?_, List.forall_mem_singleton.mpr ?_⟩
    · rw [show dump m = text.data.toList from if_pos rfl]
      exact cell_text text text' m m'
    · rw [show dump m' = text'.data.toList from if_neg hid]
      exact cell_text' (fun h => hsize (congrArg ByteArray.size h)) m m'
  have hdistinct : DistinctIds p [m, m'] := by
    intro x hx y hy id hx' hy'
    simp only [List.mem_cons, List.not_mem_nil, or_false] at hx hy
    rcases hx with rfl | rfl
    · rcases hy with rfl | rfl
      · rfl
      · exact absurd (hx'.trans hy'.symm) hids
    · rcases hy with rfl | rfl
      · exact absurd (hy'.trans hx'.symm) hids
      · rfl
  obtain ⟨u, hu, hscored, hidle, hqueue, hdelivered, hcut⟩ := run_powerCut p dump nothing m m'
  have hnew : Unrecorded p nothing.db [m, m'] := fun _ _ _ _ =>
    ⟨List.forall_mem_nil _, List.forall_mem_nil _⟩
  rw [← hscored] at hread hdistinct hnew
  obtain ⟨messages, records, hadded, hnodup, -, hall, -⟩ := stored_once (run_of_replay hu) hread hdistinct hnew
  have hstored : ∀ k x, u.scored[k]? = some x → (kept p x).isSome = true → x ∈ messages := fun k x hx hxkept =>
    hall hidle hqueue hdelivered k x hx hxkept (by rw [hcut]; exact List.not_mem_nil)
  rw [hscored] at hstored
  exact ⟨u, messages, records, run_of_replay hu, hadded, hnodup, hstored 0 m rfl hkept.1, hstored 1 m' rfl hkept.2⟩

end TwinVoice.Edge.Uplink
