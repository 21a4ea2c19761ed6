import TwinVoice.Lib.Json
import TwinVoice.Lib.Segments
import TwinVoice.Sim.Fleet
import TwinVoice.Twin.Correlation

/-! # Commands, from the call to the machine and back

The gateway of the twin, the control channel of the simulator and the broker
between them. A message that one of them publishes may reach the other late, in
another order, several times or not at all, and it may do so even where the
publishing seemed to fail. Between two commands the machines go on by
themselves. -/

namespace TwinVoice.Twin

open TwinVoice.Lib TwinVoice.Lib.Transition TwinVoice.Sim

/-- The arguments of `execute`. -/
structure Request where
  assetCode : String
  command : String
  params : List (String × Json)
  issuedBy : String
  tier : String

namespace Request

def topic (r : Request) : String := "twinvoice/cmd/" ++ r.assetCode ++ "/" ++ r.command

def payload (r : Request) (commandId : String) : Json :=
  .object [("command_id", .text commandId), ("params", .object r.params), ("issued_by", .text r.issuedBy),
    ("tier", .text r.tier)]

end Request

/-- The dictionary that `handle_command` returns. -/
def ackFields (a : Ack) : Acknowledgement :=
  [("command_id", a.commandId), ("command", .text a.command), ("status", .text a.status),
    ("error", (a.error.map Json.text).getD .null), ("t", .text a.t)]

structure Message where
  topic : String
  payload : ByteArray

/-- The `json` module: `loads`, `dumps`, and `dumps` without blanks. -/
structure JsonModule where
  loads : ByteArray → Except Base.LoadsError Json
  dumps : Json → ByteArray
  compact : Json → ByteArray

/-- The gateway, the machines, and what was handed to the broker on either side. -/
structure CommandLoop where
  gateway : Gateway
  engine : Base.Engine
  commands : List Message
  acks : List ByteArray

namespace CommandLoop

inductive Event
  | gateway (e : Gateway.Event)
  | command (k : Nat) (now : Instant) (connected : Bool)
  | works (engine : Base.Engine)
  | acknowledge (j n : Nat)

def start (engine : Base.Engine) : CommandLoop := ⟨.start, engine, [], []⟩

section
variable (json : JsonModule) (f : Formats) (requests : String → Request)

/-- What `execute` publishes for the command with this id. -/
def message (id : String) : Message := ⟨(requests id).topic, json.dumps ((requests id).payload id)⟩

/-- `CommandChannel._on_message`: the acknowledgement if the topic is that of a command. -/
def onMessage (now : Instant) (engine : Base.Engine) (m : Message) : Except String (Option Ack × Base.Engine) :=
  match Segments.split '/' m.topic with
  | [_, _, assetCode, command] =>
    (Base.handleCommand json.loads f now engine assetCode command m.payload).map fun (ack, engine') => (some ack, engine')
  | _ => .ok (none, engine)

def gatewayStep (g : Gateway) (e : Gateway.Event) : Option Gateway :=
  g.step (fun payload => (json.loads payload).toOption) f.str e

/-- What happens next. -/
def step (s : CommandLoop) : Event → Option CommandLoop
  | .gateway (.publish id success) =>
    (gatewayStep json f s.gateway (.publish id success)).map fun g =>
      { s with gateway := g, commands := s.commands ++ [message json requests id] }
  -- messages come in by `acknowledge` only
  | .gateway (.onMessage _ _) => none
  | .gateway e => (gatewayStep json f s.gateway e).map fun g => { s with gateway := g }
  | .command k now connected =>
    s.commands[k]?.map fun m =>
      match onMessage json f now s.engine m with
      | .ok (some ack, engine) =>
        { s with engine := engine, acks := if connected then s.acks ++ [json.compact (.object (ackFields ack))] else s.acks }
      -- another topic, or an exception that leaves the callback
      | _ => s
  | .works engine => some { s with engine := engine }
  | .acknowledge j n =>
    s.acks[j]?.bind fun payload =>
      (gatewayStep json f s.gateway (.onMessage n payload)).map fun g => { s with gateway := g }

end

end CommandLoop

/-! ## One step -/

/-- The call has not published its command, and will not if it has ended. -/
def Stage.Unsent : Stage → Prop
  | .idle | .connected | .registered | .leaving .notConnected | .returned .notConnected => True
  | _ => False

namespace Gateway

variable {loads : ByteArray → Option Json} {str : Json → String} {g g' : Gateway} {e : Event}

theorem stage_goes (g : Gateway) (id' : String) (stage : Stage) (id : String) :
    (g.goes id' stage).stage id = if id' = id then stage else g.stage id := by
  by_cases hid : id' = id
  · subst hid
    simp [goes]
  · simp [goes, hid, Function.update_of_ne (Ne.symm hid)]

/-- A call whose command is published stays such a call. -/
theorem sent_step (hstep : g.step loads str e = some g') {id : String}
    (hsent : ¬(g.stage id).Unsent ∨ ∃ success, e = .publish id success) : ¬(g'.stage id).Unsent := by
  have hgoes (g₀ : Gateway) (id' : String) (stage : Stage) (hsame : g₀.stage = g.stage)
      (hbefore : (g.stage id').Unsent ∨ ¬stage.Unsent) (hsent : ¬(g.stage id).Unsent) :
      ¬((g₀.goes id' stage).stage id).Unsent := by
    rw [stage_goes, hsame]
    split
    · subst id'
      exact hbefore.resolve_left hsent
    · exact hsent
  cases e with
  | publish id' success =>
    simp only [step] at hstep
    split at hstep
    · rename_i hregistered
      cases hstep
      rw [stage_goes]
      split
      · cases success <;> exact not_false
      · rename_i hid
        refine hsent.resolve_right ?_
        rintro ⟨success', heq⟩
        cases heq
        exact hid rfl
    · cases hstep
  | enter id' =>
    have hsent := hsent.resolve_right (by simp)
    simp only [step] at hstep
    split at hstep
    · rename_i hidle
      cases hstep
      exact hgoes g _ _ rfl (.inl (by rw [hidle]; trivial)) hsent
    · cases hstep
  | register id' =>
    have hsent := hsent.resolve_right (by simp)
    simp only [step] at hstep
    split at hstep
    · rename_i hconnected
      cases hstep
      exact hgoes _ _ _ rfl (.inl (by rw [hconnected]; trivial)) hsent
    · cases hstep
  | wake id' | timeout id' | read id' =>
    have hsent := hsent.resolve_right (by simp)
    simp only [step] at hstep
    split at hstep
    · cases hstep
      exact hgoes g _ _ rfl (.inr not_false) hsent
    · cases hstep
  | pop id' =>
    have hsent := hsent.resolve_right (by simp)
    simp only [step] at hstep
    split at hstep
    · rename_i outcome hleaving
      cases hstep
      refine hgoes _ _ _ rfl ?_ hsent
      rw [hleaving]
      cases outcome with
      | notConnected => exact .inl trivial
      | publishFailed => exact .inr not_false
      | answered reply => exact .inr not_false
    · cases hstep
  | onMessage n payload =>
    have hsent := hsent.resolve_right (by simp)
    simp only [step] at hstep
    split at hstep
    · split at hstep
      · split at hstep <;> cases hstep <;> exact hsent
      · cases hstep
        exact hsent
    · cases hstep
  | onConnect | onDisconnect =>
    cases hstep
    exact hsent.resolve_right (by simp)
  | store n | signal n =>
    have hsent := hsent.resolve_right (by simp)
    simp only [step] at hstep
    split at hstep
    · cases hstep
      exact hsent
    · cases hstep

theorem handling_handles (g : Gateway) (n' : Nat) (handling : Handling) (n : Nat) :
    (g.handles n' handling).handling n = if n' = n then handling else g.handling n := by
  by_cases hn : n' = n
  · subst hn
    simp [handles]
  · simp [handles, hn, Function.update_of_ne (Ne.symm hn)]

theorem loads_of_understood {payload : ByteArray} {ack : Acknowledgement} {id : String}
    (h : understood loads str payload = some (ack, id)) : loads payload = some (.object ack) := by
  unfold understood at h
  split at h
  · rename_i ack' hloads
    obtain ⟨_, -, hpair⟩ := Option.map_eq_some_iff.mp h
    cases hpair
    exact hloads
  · cases h

/-- What a message has brought is what its payload says. -/
theorem ack_step (hstep : g.step loads str e = some g') {n : Nat} {ack : Acknowledgement}
    (hack : (g'.handling n).ack = some ack) :
    (g.handling n).ack = some ack ∨ ∃ payload, e = .onMessage n payload ∧ loads payload = some (.object ack) := by
  have hhandles (g₀ : Gateway) (n' : Nat) (handling : Handling) (hsame : g₀.handling = g.handling)
      (hbefore : handling.ack = (g.handling n').ack) (hack : ((g₀.handles n' handling).handling n).ack = some ack) :
      (g.handling n).ack = some ack := by
    rw [handling_handles, hsame] at hack
    split at hack
    · subst n'
      exact hbefore ▸ hack
    · exact hack
  cases e with
  | onMessage n' payload =>
    simp only [step] at hstep
    split at hstep
    · split at hstep
      · rename_i brought id hunderstood
        have hbrings (handling : Handling) (hhandling : handling.ack = some brought)
            (hack : ((g.handles n' handling).handling n).ack = some ack) : (g.handling n).ack = some ack ∨
              ∃ payload', Event.onMessage n' payload = .onMessage n payload' ∧ loads payload' = some (.object ack) := by
          rw [handling_handles] at hack
          split at hack
          · subst n'
            cases hhandling.symm.trans hack
            exact .inr ⟨payload, rfl, loads_of_understood hunderstood⟩
          · exact .inl hack
        split at hstep <;> cases hstep
        · exact hbrings _ rfl hack
        · exact hbrings _ rfl hack
      · rename_i hexpected _ _
        cases hstep
        exact .inl (hhandles g _ _ rfl (by rw [hexpected]; rfl) hack)
    · cases hstep
  | store n' | signal n' =>
    simp only [step] at hstep
    split at hstep
    · rename_i hbefore
      cases hstep
      exact .inl (hhandles _ _ _ rfl (by rw [hbefore]; rfl) hack)
    · cases hstep
  | onConnect | onDisconnect =>
    cases hstep
    exact .inl hack
  | enter | register | publish | wake | timeout | read | pop =>
    simp only [step] at hstep
    split at hstep
    · cases hstep
      exact .inl hack
    · cases hstep

end Gateway

/-! ## Topics and answers -/

/-- A topic of four levels that was published is read as it was meant. -/
theorem split_topic {r : Request} {x y assetCode command : String}
    (h : Segments.split '/' r.topic = [x, y, assetCode, command]) : assetCode = r.assetCode ∧ command = r.command := by
  have htopic : r.topic = "twinvoice" ++ "/" ++ ("cmd" ++ "/" ++ (r.assetCode ++ "/" ++ r.command)) := by
    have hstart : "twinvoice/cmd/" = "twinvoice" ++ "/" ++ ("cmd" ++ "/") := by decide
    rw [Request.topic, hstart]
    simp only [String.append_assoc]
  have hsplit : Segments.split '/' r.topic = Segments.split '/' "twinvoice" ++ (Segments.split '/' "cmd" ++
      (Segments.split '/' r.assetCode ++ Segments.split '/' r.command)) := by
    rw [htopic]
    exact (Segments.split_append ..).trans (congrArg _ ((Segments.split_append ..).trans
      (congrArg _ (Segments.split_append ..))))
  have hfirst : Segments.split '/' "twinvoice" = ["twinvoice"] := by decide
  have hsecond : Segments.split '/' "cmd" = ["cmd"] := by decide
  rw [hsplit, hfirst, hsecond] at h
  obtain ⟨a, as, ha⟩ := List.exists_cons_of_ne_nil (Segments.split_ne_nil '/' r.assetCode)
  obtain ⟨c, cs, hc⟩ := List.exists_cons_of_ne_nil (Segments.split_ne_nil '/' r.command)
  rw [ha, hc] at h
  have hlength := congrArg List.length h
  simp at hlength
  obtain rfl := List.eq_nil_of_length_eq_zero (show as.length = 0 by omega)
  obtain rfl := List.eq_nil_of_length_eq_zero (show cs.length = 0 by omega)
  simp only [List.cons_append, List.nil_append, List.cons.injEq, and_true] at h
  rw [← h.2.2.1, ← h.2.2.2]
  exact ⟨Segments.split_eq_singleton ha, Segments.split_eq_singleton hc⟩

theorem loaded_of_ok {loads : ByteArray → Except Base.LoadsError Json} {bytes : ByteArray} {j : Json}
    (h : loads bytes = .ok j) : Base.loaded loads bytes = .ok (some j) := by
  rw [Base.loaded, h]

/-- An acknowledgement that says what has become of the machines. -/
structure Says (f : Formats) (engine engine' : Base.Engine) (assetCode command : String) (payload : Json) (ack : Ack) :
    Prop where
  own : ack.commandId = field (some payload) "command_id"
  named : ack.command = command
  accepted : ack.status = "accepted" → ack.error = none ∧
    ∃ done, Base.carryOut f engine assetCode command (some payload) = .ok done ∧ engine'.machines = done.machines
  rejected : ack.status ≠ "accepted" → ack.status = "rejected" ∧ ack.error.isSome = true ∧
    engine'.machines = engine.machines

theorem says_of_answer {f : Formats} {now : Instant} {engine engine' : Base.Engine} {assetCode command : String}
    {payload : Json} {ack : Ack} (h : Base.answer f now engine assetCode command (some payload) = .ok (ack, engine')) :
    Says f engine engine' assetCode command payload ack := by
  unfold Base.answer at h
  dsimp only at h
  split at h
  · rename_i done hdone
    cases h
    exact ⟨rfl, rfl, fun _ => ⟨rfl, done, hdone, Base.machines_record ..⟩, fun hne => absurd rfl hne⟩
  · cases h
    exact ⟨rfl, rfl, fun heq => absurd (show "rejected" = "accepted" from heq) (by decide),
      fun _ => ⟨rfl, rfl, Base.machines_record ..⟩⟩
  · cases h
    exact ⟨rfl, rfl, fun heq => absurd (show "rejected" = "accepted" from heq) (by decide),
      fun _ => ⟨rfl, rfl, Base.machines_record ..⟩⟩
  · cases h

/-! ## Whole runs -/

namespace CommandLoop

section
variable {json : JsonModule} {f : Formats} {requests : String → Request} {engine₀ : Base.Engine}

/-- JSON that `dumps` writes comes back from `loads`, for what the two ends send each other. -/
structure Faithful (json : JsonModule) (requests : String → Request) : Prop where
  command : ∀ id, json.loads (json.dumps ((requests id).payload id)) = .ok ((requests id).payload id)
  ack : ∀ id a, a.commandId = .text id → json.loads (json.compact (.object (ackFields a))) = .ok (.object (ackFields a))

/-- In these events the simulator has handled the command, as the machines stood at that moment, and has answered. -/
def Handled (json : JsonModule) (f : Formats) (requests : String → Request) (engine₀ : Base.Engine) (es : List Event)
    (id : String) (ack : Ack) : Prop :=
  ∃ before k now after s t, es = before ++ .command k now true :: after ∧
    Run (Fires (step json f requests)) (start engine₀) before s ∧
    step json f requests s (.command k now true) = some t ∧ s.commands[k]? = some (message json requests id) ∧
    Says f s.engine t.engine (requests id).assetCode (requests id).command ((requests id).payload id) ack

structure Inv (json : JsonModule) (f : Formats) (requests : String → Request) (engine₀ : Base.Engine) (es : List Event)
    (s : CommandLoop) : Prop where
  gateway : s.gateway.Inv f.str
  commands : ∀ m ∈ s.commands, ∃ id, m = message json requests id ∧ ¬(s.gateway.stage id).Unsent
  acks : ∀ b ∈ s.acks, ∃ id ack, b = json.compact (.object (ackFields ack)) ∧
    Handled json f requests engine₀ es id ack
  brought : ∀ n ack, (s.gateway.handling n).ack = some ack → ∃ b ∈ s.acks, json.loads b = .ok (.object ack)

theorem inv_start (engine₀ : Base.Engine) : Inv json f requests engine₀ [] (start engine₀) where
  gateway := Gateway.inv_start
  commands m hm := by cases hm
  acks b hb := by cases hb
  brought n ack hack := by cases hack

variable {es : List Event} {s s' : CommandLoop} {e : Event}

theorem Handled.later {id : String} {ack : Ack} (h : Handled json f requests engine₀ es id ack) (e : Event) :
    Handled json f requests engine₀ (es ++ [e]) id ack := by
  obtain ⟨before, k, now, after, t, u, rfl, hrest⟩ := h
  exact ⟨before, k, now, after ++ [e], t, u, by simp, hrest⟩

theorem Inv.later (h : Inv json f requests engine₀ es s) (e : Event) : Inv json f requests engine₀ (es ++ [e]) s where
  gateway := h.gateway
  commands := h.commands
  acks b hb := by
    obtain ⟨id, ack, hbytes, hhandled⟩ := h.acks b hb
    exact ⟨id, ack, hbytes, hhandled.later e⟩
  brought := h.brought

/-- The gateway takes a step, which may publish a command, or take an acknowledgement off the wire. -/
theorem Inv.gatewaySteps (h : Inv json f requests engine₀ es s) {e : Gateway.Event} {g : Gateway}
    (hg : gatewayStep json f s.gateway e = some g) {commands : List Message}
    (hcommands : ∀ m ∈ commands, m ∈ s.commands ∨
      ∃ id, m = message json requests id ∧ ∃ success, e = .publish id success)
    (hpayload : ∀ n payload, e = .onMessage n payload → payload ∈ s.acks) :
    Inv json f requests engine₀ es { s with gateway := g, commands := commands } where
  gateway := h.gateway.step hg
  commands m hm := by
    rcases hcommands m hm with hold | ⟨id, rfl, hpublish⟩
    · obtain ⟨id, rfl, hsent⟩ := h.commands m hold
      exact ⟨id, rfl, Gateway.sent_step hg (.inl hsent)⟩
    · exact ⟨id, rfl, Gateway.sent_step hg (.inr hpublish)⟩
  acks := h.acks
  brought n ack hack := by
    rcases Gateway.ack_step hg hack with hold | ⟨payload, hmessage, hloads⟩
    · exact h.brought n ack hold
    · refine ⟨payload, hpayload n payload hmessage, ?_⟩
      cases hresult : json.loads payload with
      | error err => simp [hresult, Except.toOption] at hloads
      | ok j =>
        rw [hresult] at hloads
        exact congrArg Except.ok (Option.some.inj hloads)

theorem says_of_onMessage (hf : Faithful json requests) {now : Instant} {engine engine' : Base.Engine} {id : String}
    {ack : Ack} (h : onMessage json f now engine (message json requests id) = .ok (some ack, engine')) :
    Says f engine engine' (requests id).assetCode (requests id).command ((requests id).payload id) ack := by
  have hpayload : (message json requests id).payload = json.dumps ((requests id).payload id) := rfl
  unfold onMessage at h
  split at h
  · rename_i assetCode command hsplit
    obtain ⟨rfl, rfl⟩ := split_topic hsplit
    cases hanswer : Base.handleCommand json.loads f now engine (requests id).assetCode (requests id).command
      (message json requests id).payload with
    | error reason => simp [hanswer, Except.map] at h
    | ok result =>
      obtain ⟨ack', done⟩ := result
      simp only [hanswer, Except.map, Except.ok.injEq, Prod.mk.injEq, Option.some.injEq] at h
      obtain ⟨rfl, rfl⟩ := h
      rw [Base.handleCommand, hpayload, loaded_of_ok (hf.command id)] at hanswer
      exact says_of_answer hanswer
  · cases h

/-- The simulator handles a command that a call has published. -/
theorem Inv.command (h : Inv json f requests engine₀ es s) (hf : Faithful json requests)
    (hrun : Run (Fires (step json f requests)) (start engine₀) es s) {k : Nat} {now : Instant} {connected : Bool}
    (hstep : step json f requests s (.command k now connected) = some s') :
    Inv json f requests engine₀ (es ++ [.command k now connected]) s' := by
  obtain ⟨m, hm, hs'⟩ := Option.map_eq_some_iff.mp hstep
  obtain ⟨id, rfl, hsent⟩ := h.commands m (List.mem_of_getElem? hm)
  split at hs'
  · rename_i ack engine hdone
    subst hs'
    have hhandled (hconnected : connected = true) :
        Handled json f requests engine₀ (es ++ [.command k now connected]) id ack := by
      subst hconnected
      exact ⟨es, k, now, [], s, _, rfl, hrun, hstep, hm, says_of_onMessage hf hdone⟩
    have hkept : ∀ b ∈ s.acks, b ∈ if connected then s.acks ++ [json.compact (.object (ackFields ack))] else s.acks := by
      intro b hb
      split
      · exact List.mem_append_left _ hb
      · exact hb
    refine ⟨h.gateway, h.commands, ?_, fun n a ha => ?_⟩
    · intro b hb
      cases connected with
      | true =>
        rcases List.mem_append.mp hb with hold | hnew
        · exact (h.later _).acks b hold
        · exact ⟨id, ack, List.mem_singleton.mp hnew, hhandled rfl⟩
      | false => exact (h.later _).acks b hb
    · obtain ⟨b, hb, hloads⟩ := h.brought n a ha
      exact ⟨b, hkept b hb, hloads⟩
  · subst hs'
    exact h.later _

theorem Inv.step (h : Inv json f requests engine₀ es s) (hf : Faithful json requests)
    (hrun : Run (Fires (step json f requests)) (start engine₀) es s) (hstep : step json f requests s e = some s') :
    Inv json f requests engine₀ (es ++ [e]) s' := by
  cases e with
  | command k now connected => exact h.command hf hrun hstep
  | works engine =>
    cases hstep
    exact ⟨h.gateway, h.commands, (h.later _).acks, h.brought⟩
  | acknowledge j n =>
    obtain ⟨payload, hpayload, hmap⟩ := Option.bind_eq_some_iff.mp hstep
    obtain ⟨g, hg, rfl⟩ := Option.map_eq_some_iff.mp hmap
    refine (h.gatewaySteps hg (fun m hm => .inl hm) ?_).later _
    intro n' payload' heq
    cases heq
    exact List.mem_of_getElem? hpayload
  | gateway e =>
    have hother (hne : ∀ n payload, e ≠ .onMessage n payload)
        (hstep : (gatewayStep json f s.gateway e).map (fun g => { s with gateway := g }) = some s') :
        Inv json f requests engine₀ (es ++ [.gateway e]) s' := by
      obtain ⟨g, hg, rfl⟩ := Option.map_eq_some_iff.mp hstep
      exact (h.gatewaySteps hg (fun m hm => .inl hm) fun n payload heq => absurd heq (hne n payload)).later _
    cases e with
    | publish id success =>
      obtain ⟨g, hg, rfl⟩ := Option.map_eq_some_iff.mp hstep
      refine (h.gatewaySteps hg ?_ fun n payload heq => by cases heq).later _
      intro m hm
      rcases List.mem_append.mp hm with hold | hnew
      · exact .inl hold
      · exact .inr ⟨id, List.mem_singleton.mp hnew, success, rfl⟩
    | onMessage n payload => cases hstep
    | _ => exact hother (by simp) hstep

theorem inv_of_run (hf : Faithful json requests) (hrun : Run (Fires (CommandLoop.step json f requests)) (start engine₀) es s) :
    Inv json f requests engine₀ es s := by
  induction hrun with
  | nil => exact inv_start engine₀
  | snoc hrun hstep ih => exact ih.step hf hrun hstep

theorem Handled.own {id : String} {ack : Ack} (h : Handled json f requests engine₀ es id ack) :
    ack.commandId = .text id := by
  obtain ⟨_, _, _, _, _, _, -, -, -, -, hsays⟩ := h
  exact hsays.own

theorem commandId_ackFields (str : Json → String) (a : Ack) :
    Gateway.commandId str (ackFields a) = some (str a.commandId) := rfl

end

/-- In every run, a call that gets an answer gets what the simulator has answered to its own command, which it has
then handled as the answer says; and the command of a call that was refused unconnected is nowhere on the wire. -/
theorem command_loop (json : JsonModule) (f : Formats) (requests : String → Request) (engine₀ : Base.Engine)
    (hf : Faithful json requests) (hstr : ∀ t, f.str (.text t) = t) {es : List Event} {s : CommandLoop}
    (hrun : Run (Fires (step json f requests)) (start engine₀) es s) (id : String) :
    (∀ r, s.gateway.stage id = .returned (.answered (some r)) →
      ∃ ack, r.ack = ackFields ack ∧ Handled json f requests engine₀ es id ack) ∧
    (s.gateway.stage id = .returned .notConnected → message json requests id ∉ s.commands) := by
  have hinv := inv_of_run hf hrun
  refine ⟨fun r hr => ?_, fun hrefused hmem => ?_⟩
  · obtain ⟨hid, hbrought⟩ := hinv.gateway.own id r (.inr (by rw [hr]; rfl))
    obtain ⟨b, hb, hloads⟩ := hinv.brought r.message r.ack hbrought
    obtain ⟨id', ack, rfl, hhandled⟩ := hinv.acks b hb
    have hown := hhandled.own
    have hfields : ackFields ack = r.ack := by
      rw [hf.ack id' ack hown] at hloads
      exact Json.object.inj (Except.ok.inj hloads)
    rw [← hfields, commandId_ackFields, hown, hstr] at hid
    cases hid
    exact ⟨ack, hfields.symm, hhandled⟩
  · obtain ⟨id', hsame, hsent⟩ := hinv.commands _ hmem
    have hid : id = id' := by
      have hpayload := hf.command id
      rw [show json.dumps ((requests id).payload id) = json.dumps ((requests id').payload id') from
        congrArg Message.payload hsame, hf.command id'] at hpayload
      have hfield := congrArg (fun j => field (some j) "command_id") (Except.ok.inj hpayload)
      exact (Json.text.inj hfield).symm
    rw [← hid, hrefused] at hsent
    exact hsent trivial

end CommandLoop

/-! ## JSON without floats -/

mutual

/-- The document of a value without floats. -/
def document : Json → Lib.Json.Document
  | .null | .float _ => .null
  | .bool b => .bool b
  | .int n => .int n
  | .text s => .str s
  | .array values => .arr (documents values)
  | .object fields => .obj (documentFields fields)

def documents : List Json → List Lib.Json.Document
  | [] => []
  | v :: vs => document v :: documents vs

def documentFields : List (String × Json) → List (String × Lib.Json.Document)
  | [] => []
  | (k, v) :: fields => (k, document v) :: documentFields fields

end

mutual

def ofDocument : Lib.Json.Document → Json
  | .null => .null
  | .bool b => .bool b
  | .int n => .int n
  | .str s => .text s
  | .arr items => .array (ofDocuments items)
  | .obj members => .object (ofDocumentMembers members)

def ofDocuments : List Lib.Json.Document → List Json
  | [] => []
  | v :: vs => ofDocument v :: ofDocuments vs

def ofDocumentMembers : List (String × Lib.Json.Document) → List (String × Json)
  | [] => []
  | (k, v) :: members => (k, ofDocument v) :: ofDocumentMembers members

end

mutual

def floatFree : Json → Bool
  | .float _ => false
  | .array values => floatFreeAll values
  | .object fields => floatFreeFields fields
  | _ => true

def floatFreeAll : List Json → Bool
  | [] => true
  | v :: vs => floatFree v && floatFreeAll vs

def floatFreeFields : List (String × Json) → Bool
  | [] => true
  | (_, v) :: fields => floatFree v && floatFreeFields fields

end

mutual

theorem ofDocument_document : ∀ v, floatFree v = true → ofDocument (document v) = v
  | .null, _ | .bool _, _ | .int _, _ | .text _, _ => rfl
  | .float _, h => nomatch h
  | .array values, h => congrArg Json.array (ofDocuments_documents values h)
  | .object fields, h => congrArg Json.object (ofDocumentMembers_documentFields fields h)

theorem ofDocuments_documents : ∀ vs, floatFreeAll vs = true → ofDocuments (documents vs) = vs
  | [], _ => rfl
  | v :: vs, h => by
    obtain ⟨hv, hvs⟩ := Bool.and_eq_true_iff.mp h
    rw [documents, ofDocuments, ofDocument_document v hv, ofDocuments_documents vs hvs]

theorem ofDocumentMembers_documentFields : ∀ fields, floatFreeFields fields = true →
    ofDocumentMembers (documentFields fields) = fields
  | [], _ => rfl
  | (k, v) :: fields, h => by
    obtain ⟨hv, hfields⟩ := Bool.and_eq_true_iff.mp h
    rw [documentFields, ofDocumentMembers, ofDocument_document v hv, ofDocumentMembers_documentFields fields hfields]

end

/-- `json`, on values without floats. -/
def plainJson : JsonModule where
  loads bytes :=
    match String.fromUTF8? bytes with
    | none => .error .unicodeDecode
    | some text =>
      match Lib.Json.loads text with
      | some d => .ok (ofDocument d)
      | none => .error .jsonDecode
  dumps v := (String.ofList (Lib.Json.line [' '] (document v))).toUTF8
  compact v := (String.ofList (Lib.Json.line [] (document v))).toUTF8

theorem fromUTF8?_toUTF8 (s : String) : String.fromUTF8? s.toUTF8 = some s :=
  dif_pos s.isValidUTF8

theorem loads_text (text : String) : plainJson.loads text.toUTF8 =
    match Lib.Json.loads text with
    | some d => .ok (ofDocument d)
    | none => .error .jsonDecode := by
  rw [plainJson]
  dsimp only
  rw [fromUTF8?_toUTF8]

theorem loads_dumps {v : Json} (h : floatFree v = true) : plainJson.loads (plainJson.dumps v) = .ok v := by
  have hdumps : plainJson.dumps v = (String.ofList (Lib.Json.line [' '] (document v))).toUTF8 := rfl
  have hblank : ∀ c ∈ [' '], Lib.Json.isSpace c = true := fun c hc => List.mem_singleton.mp hc ▸ rfl
  rw [hdumps, loads_text, Lib.Json.loads_line hblank]
  exact congrArg Except.ok (ofDocument_document v h)

theorem loads_compact {v : Json} (h : floatFree v = true) : plainJson.loads (plainJson.compact v) = .ok v := by
  have hcompact : plainJson.compact v = (String.ofList (Lib.Json.line [] (document v))).toUTF8 := rfl
  rw [hcompact, loads_text, Lib.Json.loads_line (by simp)]
  exact congrArg Except.ok (ofDocument_document v h)

namespace CommandLoop

theorem faithful_plainJson {requests : String → Request} (h : ∀ id, floatFreeFields (requests id).params = true) :
    Faithful plainJson requests where
  command id := by
    have hfree : floatFree ((requests id).payload id) = true := by
      simp [Request.payload, floatFree, floatFreeFields, h]
    exact loads_dumps hfree
  ack id a ha := by
    have hfree : floatFree (.object (ackFields a)) = true := by
      cases herror : a.error <;> simp [ackFields, floatFree, floatFreeFields, ha, herror]
    exact loads_compact hfree

/-! One call, whose command is delivered twice, and the acknowledgement of the second delivery is lost. -/

def presses : Base.Engine :=
  let math : Base.Math := ⟨fun _ => 1, fun x => x, fun x _ => x⟩
  let kind : Base.Subclass := ⟨fun _ => 0, fun _ _ => ([], [])⟩
  ⟨⟨[Base.Machine.new math kind ⟨"press", 30, 15, 1 / 5, 9 / 10, 9 / 10, 1 / 100, 1800⟩ Base.oneBearing],
    List.nodup_singleton _⟩, 0, []⟩

def oneCall : List Event :=
  [.gateway .onConnect, .gateway (.enter "c1"), .gateway (.register "c1"), .gateway (.publish "c1" true),
    .command 0 0 true, .command 0 0 false, .acknowledge 0 0, .gateway (.store 0), .gateway (.signal 0),
    .gateway (.wake "c1"), .gateway (.read "c1"), .gateway (.pop "c1")]

def setLoad80 : String → Request := fun _ => ⟨"press", "set_load", [("load_pct", .int 80)], "operator", "guarded"⟩

def plain : Formats := ⟨fun _ => "", Gateway.textOf, fun _ => ""⟩

/-- The answer with which a call has returned. -/
def reply? : Stage → Option Received
  | .returned (.answered reply) => reply
  | _ => none

theorem returned_of_reply? {stage : Stage} {r : Received} (h : reply? stage = some r) :
    stage = .returned (.answered (some r)) := by
  unfold reply? at h
  split at h
  · rw [h]
  · cases h

theorem command_loop_one_call : ∃ s r ack, Run (Fires (step plainJson plain setLoad80)) (start presses) oneCall s ∧
    s.gateway.stage "c1" = .returned (.answered (some r)) ∧ r.ack = ackFields ack ∧
    Handled plainJson plain setLoad80 presses oneCall "c1" ack := by
  have hanswered : ((replay (step plainJson plain setLoad80) (start presses) oneCall).bind fun s =>
      reply? (s.gateway.stage "c1")).isSome = true := by
    decide +kernel
  obtain ⟨r, hr⟩ := Option.isSome_iff_exists.mp hanswered
  obtain ⟨s, hs, hreply⟩ := Option.bind_eq_some_iff.mp hr
  have hstage := returned_of_reply? hreply
  have hrun := run_of_replay hs
  have hfaithful : Faithful plainJson setLoad80 := faithful_plainJson fun _ => rfl
  obtain ⟨ack, hack, hhandled⟩ :=
    (command_loop plainJson plain setLoad80 presses hfaithful (fun _ => rfl) hrun "c1").1 r hstage
  exact ⟨s, r, ack, hrun, hstage, hack, hhandled⟩

end CommandLoop

end TwinVoice.Twin
