import Mathlib.Data.Finset.Sort
import Mathlib.Data.String.Basic
import Mathlib.Logic.Function.Basic
import TwinVoice.Lib.Regex
import TwinVoice.Sim.Commands
import TwinVoice.Web.Connection

/-! # The hub of `/ws/live`

`WsHub` with any number of sockets. The `handle` of each socket, the listener
and the heartbeat are tasks of one loop, which goes from one to another
wherever a task awaits something: between a frame and its reply, and between
two of the sockets to which a message goes out. A socket that a send fails on is
dropped at once, and its `handle` finds out at the next frame. -/

namespace TwinVoice.Web

open TwinVoice.Lib TwinVoice.Lib.Transition
open TwinVoice.Sim (Json)

/-! ## Topics and messages -/

def lowerOrDigit (c : Char) : Bool := c.isLower || c.isDigit

/-- `TOPIC_RE`, between its anchors. -/
def topicRe : Regex Char :=
  .anyOf [.seq (.text "asset:".toList) (.seq (.letter lowerOrDigit)
      (.star (.letter fun c => lowerOrDigit c || c = '_' || c = '-'))),
    .text "alarms".toList,
    .seq (.text "voice:".toList) (.plus (.letter fun c => c.isAlphanum || c = '-'))]

/-- `TOPIC_RE.match(t)`. The `$` holds before a newline at the end as well. -/
def topicMatches (t : Topic) : Bool :=
  topicRe.fullMatch t.toList || (t.toList.getLast? = some '\n' && topicRe.fullMatch t.toList.dropLast)

/-- What follows a text that stands at the beginning. -/
def after? (start t : String) : Option String :=
  if start.toList.isPrefixOf t.toList then some (String.ofList (t.toList.drop start.length)) else none

def channelToTopic (channel : String) : Topic :=
  match after? "live:" channel with
  | some code => "asset:" ++ code
  | none => channel

/-- A live message on an asset names it. -/
def namesAsset (topic : Topic) (message : Dict String Json) : Dict String Json :=
  match after? "asset:" topic, message.get? "asset" with
  | some code, none => message.set "asset" (.text code)
  | _, _ => message

/-- `to_client_message`, of the decoded message; none is malformed. -/
def toClientMessage (topic : Topic) : Option Json → Option (Dict String Json)
  | some (.object data) =>
    match data.lookup "kind", data.lookup "payload" with
    | some kind, some (.object payload) =>
      some (namesAsset topic (payload.foldl (fun m e => Dict.set m e.1 e.2) [("type", kind)]))
    | _, _ => none
  | _ => none

/-- What a `for` takes out of a JSON value, if it can. -/
def items : Json → Option (List Json)
  | .array values => some values
  | .text s => some (s.toList.map fun c => .text (String.singleton c))
  | .object fields => some (fields.map fun e => .text e.1)
  | _ => none

/-- A string that is a topic. -/
def topicOf : Json → Option Topic
  | .text t => if topicMatches t then some t else none
  | _ => none

/-- The topics that a frame names. -/
def topicsOf (msg : List (String × Json)) : Option (Finset Topic) :=
  (items ((msg.lookup "topics").getD (.array []))).map fun ts => (ts.filterMap topicOf).toFinset

/-- The topics of a socket after a frame. There are none where the frame ends `handle`: it is no JSON object,
its topics can not be gone through, or the socket is dropped already. -/
def afterFrame (topics : Option (Finset Topic)) (frame : Option Json) : Option (Finset Topic) :=
  match frame, topics with
  | some (.object msg), some topics =>
    (topicsOf msg).map fun named =>
      match msg.lookup "type" with
      | some (.text "subscribe") => topics ∪ named
      | some (.text "unsubscribe") => topics \ named
      | _ => topics
  | _, _ => none

/-! ## The hub -/

/-- A live message with the topic that it goes out on. -/
structure Live where
  topic : Topic
  message : Dict String Json

/-- What goes out on a socket. -/
inductive Sent
  | subscribed (topics : List Topic)
  | live (m : Live)
  | heartbeat (t : String)

/-- How far the `handle` of a socket is. -/
inductive Turn
  | absent
  | receiving
  | replying (topics : List Topic)
  | ended

/-- `_send_all`: the sockets that are left to send to, and the message. -/
structure Round (μ : Type) where
  targets : List Nat
  message : μ

structure WsHub where
  sockets : Dict Nat (Finset Topic)
  turn : Nat → Turn
  publishing : Option (Round Live)
  beating : Option (Round String)
  sent : Nat → List Sent

namespace WsHub

def start : WsHub := ⟨[], fun _ => .absent, none, none, fun _ => []⟩

inductive Event
  | connect (ws : Nat)
  | frame (ws : Nat) (frame : Option Json)
  | reply (ws : Nat) (success : Bool)
  | disconnect (ws : Nat)
  | message (channel : String) (data : Option Json)
  | publish (ws : Nat) (success : Bool)
  | published
  | heartbeat (t : String)
  | beat (ws : Nat) (success : Bool)
  | beaten

def takesTurn (h : WsHub) (ws : Nat) (turn : Turn) : WsHub := { h with turn := Function.update h.turn ws turn }

/-- `self._sockets.pop(ws, None)`. -/
def drop (h : WsHub) (ws : Nat) : WsHub := { h with sockets := h.sockets.pop ws }

/-- `ws.send_json`. -/
def sends (h : WsHub) (ws : Nat) (s : Sent) : WsHub := { h with sent := Function.update h.sent ws (h.sent ws ++ [s]) }

/-- One send of `_send_all`. -/
def sendsOrDrops (h : WsHub) (ws : Nat) (s : Sent) (success : Bool) : WsHub :=
  if success then h.sends ws s else h.drop ws

/-- `publish_local`: the sockets that are down for the topic. -/
def targets (h : WsHub) (topic : Topic) : List Nat :=
  (h.sockets.filter fun e => topic ∈ e.2).map Prod.fst

/-- What happens next. -/
def step (h : WsHub) : Event → Option WsHub
  | .connect ws =>
    match h.turn ws with
    | .absent => some ({ h with sockets := h.sockets.set ws ∅ }.takesTurn ws .receiving)
    | _ => none
  | .frame ws frame =>
    match h.turn ws with
    | .receiving =>
      match afterFrame (h.sockets.get? ws) frame with
      | some topics => some ({ h with sockets := h.sockets.set ws topics }.takesTurn ws (.replying topics.sort))
      | none => some ((h.drop ws).takesTurn ws .ended)
    | _ => none
  | .reply ws success =>
    match h.turn ws with
    | .replying topics =>
      some (if success then (h.sends ws (.subscribed topics)).takesTurn ws .receiving else (h.drop ws).takesTurn ws .ended)
    | _ => none
  | .disconnect ws =>
    match h.turn ws with
    | .receiving => some ((h.drop ws).takesTurn ws .ended)
    | _ => none
  | .message channel data =>
    match h.publishing with
    | none =>
      match toClientMessage (channelToTopic channel) data with
      | some message => some { h with
          publishing := some ⟨h.targets (channelToTopic channel), channelToTopic channel, message⟩ }
      | none => some h
    | some _ => none
  | .publish ws success =>
    match h.publishing with
    | some ⟨first :: rest, m⟩ =>
      if first = ws then some ({ h with publishing := some ⟨rest, m⟩ }.sendsOrDrops ws (.live m) success) else none
    | _ => none
  | .published =>
    match h.publishing with
    | some ⟨[], _⟩ => some { h with publishing := none }
    | _ => none
  | .heartbeat t =>
    match h.beating with
    | none => some { h with beating := some ⟨h.sockets.map Prod.fst, t⟩ }
    | some _ => none
  | .beat ws success =>
    match h.beating with
    | some ⟨first :: rest, t⟩ =>
      if first = ws then some ({ h with beating := some ⟨rest, t⟩ }.sendsOrDrops ws (.heartbeat t) success) else none
    | _ => none
  | .beaten =>
    match h.beating with
    | some ⟨[], _⟩ => some { h with beating := none }
    | _ => none

/-! ## What a socket is due -/

/-- The topics of a socket after an event. -/
def topicsAfter (ws : Nat) (topics : Option (Finset Topic)) : Event → Option (Finset Topic)
  | .connect ws' => if ws' = ws then some ∅ else topics
  | .frame ws' frame => if ws' = ws then afterFrame topics frame else topics
  | .reply ws' success | .publish ws' success | .beat ws' success => if ws' = ws ∧ success = false then none else topics
  | .disconnect ws' => if ws' = ws then none else topics
  | .message _ _ | .published | .heartbeat _ | .beaten => topics

/-- The live message that an event makes due on a socket with these topics. -/
def dueOf (topics : Option (Finset Topic)) : Event → List Live
  | .message channel data =>
    if topics.any fun ts => channelToTopic channel ∈ ts then
      ((toClientMessage (channelToTopic channel) data).map fun message => ⟨channelToTopic channel, message⟩).toList
    else []
  | _ => []

/-- The reply that an event makes due on a socket with these topics. -/
def replyOf (ws : Nat) (topics : Option (Finset Topic)) : Event → List (List Topic)
  | .frame ws' frame => if ws' = ws then ((afterFrame topics frame).map fun ts => ts.sort).toList else []
  | _ => []

/-- What is due on a socket, by the frames that were read from it and the messages that came. -/
structure View where
  topics : Option (Finset Topic)
  due : List Live
  replies : List (List Topic)

def View.sees (ws : Nat) (v : View) (e : Event) : View :=
  ⟨topicsAfter ws v.topics e, v.due ++ dueOf v.topics e, v.replies ++ replyOf ws v.topics e⟩

def view (ws : Nat) (es : List Event) : View := es.foldl (View.sees ws) ⟨none, [], []⟩

@[simp] theorem view_snoc (ws : Nat) (es : List Event) (e : Event) : view ws (es ++ [e]) = (view ws es).sees ws e := by
  simp [view]

def Sent.live? : Sent → Option Live
  | .live m => some m
  | _ => none

def Sent.reply? : Sent → Option (List Topic)
  | .subscribed topics => some topics
  | _ => none

/-- The live messages that went out on a socket. -/
def lives (h : WsHub) (ws : Nat) : List Live := (h.sent ws).filterMap Sent.live?

def replies (h : WsHub) (ws : Nat) : List (List Topic) := (h.sent ws).filterMap Sent.reply?

/-- The live message that has yet to go out on a socket. -/
def inFlight (h : WsHub) (ws : Nat) : List Live :=
  match h.publishing with
  | some r => if ws ∈ r.targets then [r.message] else []
  | none => []

def waiting (h : WsHub) (ws : Nat) : List (List Topic) :=
  match h.turn ws with
  | .replying topics => [topics]
  | _ => []

/-! ## One step -/

/-- What a step can be. -/
inductive Steps : WsHub → Event → WsHub → Prop
  | connect {h ws} (absent : h.turn ws = .absent) :
    Steps h (.connect ws) ({ h with sockets := h.sockets.set ws ∅ }.takesTurn ws .receiving)
  | frame {h ws frame topics} (receiving : h.turn ws = .receiving)
    (after : afterFrame (h.sockets.get? ws) frame = some topics) :
    Steps h (.frame ws frame) ({ h with sockets := h.sockets.set ws topics }.takesTurn ws (.replying topics.sort))
  | frameEnds {h ws frame} (receiving : h.turn ws = .receiving)
    (after : afterFrame (h.sockets.get? ws) frame = none) : Steps h (.frame ws frame) ((h.drop ws).takesTurn ws .ended)
  | reply {h ws topics} (replying : h.turn ws = .replying topics) :
    Steps h (.reply ws true) ((h.sends ws (.subscribed topics)).takesTurn ws .receiving)
  | replyFails {h ws topics} (replying : h.turn ws = .replying topics) :
    Steps h (.reply ws false) ((h.drop ws).takesTurn ws .ended)
  | disconnect {h ws} (receiving : h.turn ws = .receiving) :
    Steps h (.disconnect ws) ((h.drop ws).takesTurn ws .ended)
  | message {h channel data message} (idle : h.publishing = none)
    (decoded : toClientMessage (channelToTopic channel) data = some message) :
    Steps h (.message channel data)
      { h with publishing := some ⟨h.targets (channelToTopic channel), channelToTopic channel, message⟩ }
  | malformed {h channel data} (idle : h.publishing = none)
    (decoded : toClientMessage (channelToTopic channel) data = none) : Steps h (.message channel data) h
  | publish {h ws rest m success} (first : h.publishing = some ⟨ws :: rest, m⟩) :
    Steps h (.publish ws success) ({ h with publishing := some ⟨rest, m⟩ }.sendsOrDrops ws (.live m) success)
  | published {h m} (all : h.publishing = some ⟨[], m⟩) : Steps h .published { h with publishing := none }
  | heartbeat {h t} (idle : h.beating = none) :
    Steps h (.heartbeat t) { h with beating := some ⟨h.sockets.map Prod.fst, t⟩ }
  | beat {h ws rest t success} (first : h.beating = some ⟨ws :: rest, t⟩) :
    Steps h (.beat ws success) ({ h with beating := some ⟨rest, t⟩ }.sendsOrDrops ws (.heartbeat t) success)
  | beaten {h t} (all : h.beating = some ⟨[], t⟩) : Steps h .beaten { h with beating := none }

section
variable {h h' : WsHub} {ws : Nat} {e : Event}

theorem get?_sendsOrDrops (h : WsHub) (ws' : Nat) (s : Sent) (success : Bool) (ws : Nat) :
    (h.sendsOrDrops ws' s success).sockets.get? ws =
      if ws' = ws ∧ success = false then none else h.sockets.get? ws := by
  cases success with
  | true => simp [sendsOrDrops, sends]
  | false => simp [sendsOrDrops, drop, Dict.get?_pop]

theorem steps_of_step (hstep : step h e = some h') : Steps h e h' := by
  cases e with
  | connect ws =>
    simp only [step] at hstep
    split at hstep
    · cases hstep
      exact .connect ‹_›
    · cases hstep
  | frame ws frame =>
    simp only [step] at hstep
    split at hstep
    · split at hstep <;> cases hstep
      · exact .frame ‹_› ‹_›
      · exact .frameEnds ‹_› ‹_›
    · cases hstep
  | reply ws success =>
    simp only [step] at hstep
    split at hstep
    · cases success <;> cases hstep
      · exact .replyFails ‹_›
      · exact .reply ‹_›
    · cases hstep
  | disconnect ws =>
    simp only [step] at hstep
    split at hstep
    · cases hstep
      exact .disconnect ‹_›
    · cases hstep
  | message channel data =>
    simp only [step] at hstep
    split at hstep
    · split at hstep <;> cases hstep
      · exact .message ‹_› ‹_›
      · exact .malformed ‹_› ‹_›
    · cases hstep
  | publish ws success =>
    simp only [step] at hstep
    split at hstep
    · obtain ⟨rfl, heq⟩ := Option.ite_none_right_eq_some.mp hstep
      cases heq
      exact .publish ‹_›
    · cases hstep
  | published =>
    simp only [step] at hstep
    split at hstep
    · cases hstep
      exact .published ‹_›
    · cases hstep
  | heartbeat t =>
    simp only [step] at hstep
    split at hstep
    · cases hstep
      exact .heartbeat ‹_›
    · cases hstep
  | beat ws success =>
    simp only [step] at hstep
    split at hstep
    · obtain ⟨rfl, heq⟩ := Option.ite_none_right_eq_some.mp hstep
      cases heq
      exact .beat ‹_›
    · cases hstep
  | beaten =>
    simp only [step] at hstep
    split at hstep
    · cases hstep
      exact .beaten ‹_›
    · cases hstep

theorem turn_takesTurn (h : WsHub) (ws' : Nat) (turn : Turn) (ws : Nat) :
    (h.takesTurn ws' turn).turn ws = if ws' = ws then turn else h.turn ws := by
  by_cases hws : ws' = ws
  · subst hws
    simp [takesTurn]
  · simp [takesTurn, hws, Function.update_of_ne (Ne.symm hws)]

theorem turn_sendsOrDrops (h : WsHub) (ws' : Nat) (s : Sent) (success : Bool) :
    (h.sendsOrDrops ws' s success).turn = h.turn := by
  cases success <;> rfl

theorem publishing_sendsOrDrops (h : WsHub) (ws' : Nat) (s : Sent) (success : Bool) :
    (h.sendsOrDrops ws' s success).publishing = h.publishing := by
  cases success <;> rfl

theorem sent_sendsOrDrops (h : WsHub) (ws' : Nat) (s : Sent) (success : Bool) (ws : Nat) :
    (h.sendsOrDrops ws' s success).sent ws =
      h.sent ws ++ if ws' = ws ∧ success = true then [s] else [] := by
  cases success with
  | true =>
    by_cases hws : ws' = ws
    · subst hws
      simp [sendsOrDrops, sends]
    · simp [sendsOrDrops, sends, hws, Function.update_of_ne (Ne.symm hws)]
  | false => simp [sendsOrDrops, drop]

/-- The hub has each socket down for what has happened to it, whatever goes on elsewhere. -/
theorem get?_step (hstep : Steps h e h') : h'.sockets.get? ws = topicsAfter ws (h.sockets.get? ws) e := by
  cases hstep with
  | connect => exact Dict.get?_set ..
  | @frame ws' _ topics _ hafter =>
    rw [topicsAfter]
    split
    · subst ws'
      rw [hafter]
      exact (Dict.get?_set ..).trans (if_pos rfl)
    · exact (Dict.get?_set ..).trans (if_neg ‹_›)
  | @frameEnds ws' _ _ hafter =>
    rw [topicsAfter]
    split
    · subst ws'
      rw [hafter]
      exact (Dict.get?_pop ..).trans (if_pos rfl)
    · exact (Dict.get?_pop ..).trans (if_neg ‹_›)
  | reply => simp [topicsAfter, takesTurn, sends]
  | replyFails => simp [topicsAfter, takesTurn, drop, Dict.get?_pop]
  | disconnect => exact Dict.get?_pop ..
  | message => rfl
  | malformed => rfl
  | publish => exact get?_sendsOrDrops ..
  | published => rfl
  | heartbeat => rfl
  | beat => exact get?_sendsOrDrops ..
  | beaten => rfl

/-- No socket begins a second time. -/
theorem absent_of_step (hstep : Steps h e h') (habsent : h'.turn ws = .absent) : h.turn ws = .absent := by
  have hother (h₀ : WsHub) (ws' : Nat) (turn : Turn) (hsame : h₀.turn = h.turn) (hne : turn ≠ .absent)
      (htakes : (h₀.takesTurn ws' turn).turn ws = .absent) : h.turn ws = .absent := by
    rw [turn_takesTurn, hsame] at htakes
    split at htakes
    · exact absurd htakes hne
    · exact htakes
  cases hstep with
  | connect => exact hother _ _ _ rfl (by simp) habsent
  | frame => exact hother _ _ _ rfl (by simp) habsent
  | frameEnds => exact hother _ _ _ rfl (by simp) habsent
  | reply => exact hother _ _ _ rfl (by simp) habsent
  | replyFails => exact hother _ _ _ rfl (by simp) habsent
  | disconnect => exact hother _ _ _ rfl (by simp) habsent
  | publish =>
    rw [turn_sendsOrDrops] at habsent
    exact habsent
  | beat =>
    rw [turn_sendsOrDrops] at habsent
    exact habsent
  | _ => exact habsent

/-- A `handle` that has ended takes no further turn. -/
theorem ended_of_step (hstep : Steps h e h') (hended : h.turn ws = .ended) : h'.turn ws = .ended := by
  have hother (h₀ : WsHub) (ws' : Nat) (turn : Turn) (hsame : h₀.turn = h.turn) (hbefore : h.turn ws' ≠ .ended) :
      (h₀.takesTurn ws' turn).turn ws = .ended := by
    rw [turn_takesTurn, hsame]
    split
    · subst ws'
      exact absurd hended hbefore
    · exact hended
  cases hstep with
  | connect habsent => exact hother _ _ _ rfl (by simp [habsent])
  | frame hreceiving => exact hother _ _ _ rfl (by simp [hreceiving])
  | frameEnds hreceiving => exact hother _ _ _ rfl (by simp [hreceiving])
  | reply hreplying => exact hother _ _ _ rfl (by simp [hreplying])
  | replyFails hreplying => exact hother _ _ _ rfl (by simp [hreplying])
  | disconnect hreceiving => exact hother _ _ _ rfl (by simp [hreceiving])
  | publish =>
    rw [turn_sendsOrDrops]
    exact hended
  | beat =>
    rw [turn_sendsOrDrops]
    exact hended
  | _ => exact hended

theorem mem_targets (hnodup : (h.sockets.map Prod.fst).Nodup) (topic : Topic) :
    ws ∈ h.targets topic ↔ ∃ topics, h.sockets.get? ws = some topics ∧ topic ∈ topics := by
  rw [targets, List.mem_map]
  constructor
  · rintro ⟨⟨k, topics⟩, hmem, rfl⟩
    obtain ⟨hentry, htopic⟩ := List.mem_filter.mp hmem
    refine ⟨topics, ?_, of_decide_eq_true htopic⟩
    refine Dict.get?_eq_some hentry ?_
    intro topics' hentry'
    exact congrArg Prod.snd (List.inj_on_of_nodup_map hnodup hentry' hentry rfl)
  · rintro ⟨topics, hget, htopic⟩
    exact ⟨(ws, topics), List.mem_filter.mpr ⟨Dict.mem_of_get? hget, decide_eq_true htopic⟩, rfl⟩

theorem nodup_step (hstep : Steps h e h') (hnodup : (h.sockets.map Prod.fst).Nodup) :
    (h'.sockets.map Prod.fst).Nodup := by
  have hpop (ws' : Nat) : ((h.sockets.pop ws').map Prod.fst).Nodup := hnodup.sublist (List.filter_sublist.map _)
  cases hstep with
  | connect => exact Dict.nodup_set hnodup _ _
  | frame => exact Dict.nodup_set hnodup _ _
  | frameEnds => exact hpop _
  | reply => exact hnodup
  | replyFails => exact hpop _
  | disconnect => exact hpop _
  | message => exact hnodup
  | malformed => exact hnodup
  | @publish _ _ _ success _ =>
    cases success with
    | true => exact hnodup
    | false => exact hpop _
  | published => exact hnodup
  | heartbeat => exact hnodup
  | @beat _ _ _ success _ =>
    cases success with
    | true => exact hnodup
    | false => exact hpop _
  | beaten => exact hnodup

/-- What goes out on a socket and has yet to go out grows by what is due, unless a send fails. -/
theorem lives_step (hstep : Steps h e h') (hnodup : (h.sockets.map Prod.fst).Nodup)
    (honce : ∀ r, h.publishing = some r → r.targets.Nodup) (hne : e ≠ .publish ws false) :
    lives h' ws ++ inFlight h' ws = lives h ws ++ inFlight h ws ++ dueOf (h.sockets.get? ws) e := by
  cases hstep with
  | connect => simp [lives, inFlight, dueOf, takesTurn]
  | frame => simp [lives, inFlight, dueOf, takesTurn]
  | frameEnds => simp [lives, inFlight, dueOf, takesTurn, drop]
  | @reply ws' topics _ =>
    by_cases hws : ws = ws'
    · subst hws
      simp [lives, inFlight, dueOf, takesTurn, sends, Sent.live?]
    · simp [lives, inFlight, dueOf, takesTurn, sends, Function.update_of_ne hws]
  | replyFails => simp [lives, inFlight, dueOf, takesTurn, drop]
  | disconnect => simp [lives, inFlight, dueOf, takesTurn, drop]
  | @message channel data message hidle hdecoded =>
    have hmem : ws ∈ h.targets (channelToTopic channel) ↔ _ := mem_targets hnodup (channelToTopic channel)
    cases hget : h.sockets.get? ws with
    | none =>
      rw [hget] at hmem
      have hnot : ws ∉ h.targets (channelToTopic channel) := by simpa using hmem
      simp [lives, inFlight, dueOf, hidle, hnot]
    | some topics =>
      rw [hget] at hmem
      have hiff : ws ∈ h.targets (channelToTopic channel) ↔ channelToTopic channel ∈ topics := by simpa using hmem
      by_cases htopic : channelToTopic channel ∈ topics
      · simp [lives, inFlight, dueOf, hidle, hdecoded, hiff.mpr htopic, htopic]
      · simp [lives, inFlight, dueOf, hidle, mt hiff.mp htopic, htopic]
  | malformed _ hdecoded => simp [lives, inFlight, dueOf, hdecoded]
  | @publish ws' rest m success hfirst =>
    have hrest : ws' ∉ rest := (List.nodup_cons.mp (honce _ hfirst)).1
    rw [lives, sent_sendsOrDrops, inFlight, publishing_sendsOrDrops, lives, inFlight, hfirst]
    by_cases hws : ws' = ws
    · subst hws
      cases success with
      | true => simp [dueOf, hrest, Sent.live?]
      | false => exact absurd rfl hne
    · simp [dueOf, hws, Ne.symm hws]
  | published hall => simp [lives, inFlight, dueOf, hall]
  | heartbeat => simp [lives, inFlight, dueOf]
  | @beat ws' rest t success _ =>
    rw [lives, sent_sendsOrDrops, inFlight, publishing_sendsOrDrops]
    by_cases hsent : ws' = ws ∧ success = true
    · simp [lives, inFlight, dueOf, hsent, Sent.live?]
    · simp [lives, inFlight, dueOf, hsent]
  | beaten => simp [lives, inFlight, dueOf]

/-- A send that fails is of the message that was in flight, and no other is in flight then. -/
theorem lives_lost (hstep : Steps h (.publish ws false) h') (honce : ∀ r, h.publishing = some r → r.targets.Nodup) :
    lives h' ws = lives h ws ∧ inFlight h' ws = [] ∧ ∃ m, inFlight h ws = [m] := by
  cases hstep with
  | @publish _ rest m _ hfirst =>
    have hrest : ws ∉ rest := (List.nodup_cons.mp (honce _ hfirst)).1
    refine ⟨rfl, ?_, m, ?_⟩
    · simp [inFlight, publishing_sendsOrDrops, hrest]
    · simp [inFlight, hfirst]

theorem replies_step (hstep : Steps h e h') (hne : e ≠ .reply ws false) :
    replies h' ws ++ waiting h' ws = replies h ws ++ waiting h ws ++ replyOf ws (h.sockets.get? ws) e := by
  have hother (turn : Turn) {ws' : Nat} (hws : ws' ≠ ws) : Function.update h.turn ws' turn ws = h.turn ws :=
    Function.update_of_ne (Ne.symm hws) ..
  cases hstep with
  | @connect ws' habsent =>
    by_cases hws : ws' = ws
    · subst hws
      simp [replies, waiting, replyOf, takesTurn, habsent]
    · simp [replies, waiting, replyOf, takesTurn, hother _ hws]
  | @frame ws' _ _ hreceiving hafter =>
    by_cases hws : ws' = ws
    · subst hws
      simp [replies, waiting, replyOf, takesTurn, hreceiving, hafter]
    · simp [replies, waiting, replyOf, takesTurn, hws, hother _ hws]
  | @frameEnds ws' _ hreceiving hafter =>
    by_cases hws : ws' = ws
    · subst hws
      simp [replies, waiting, replyOf, takesTurn, drop, hreceiving, hafter]
    · simp [replies, waiting, replyOf, takesTurn, drop, hws, hother _ hws]
  | @reply ws' topics hreplying =>
    by_cases hws : ws' = ws
    · subst hws
      simp [replies, waiting, replyOf, takesTurn, sends, hreplying, Sent.reply?]
    · simp [replies, waiting, replyOf, takesTurn, sends, hother _ hws, Function.update_of_ne (Ne.symm hws)]
  | @replyFails ws' topics hreplying =>
    have hws : ws' ≠ ws := fun heq => hne (by rw [heq])
    simp [replies, waiting, replyOf, takesTurn, drop, hother _ hws]
  | @disconnect ws' hreceiving =>
    by_cases hws : ws' = ws
    · subst hws
      simp [replies, waiting, replyOf, takesTurn, drop, hreceiving]
    · simp [replies, waiting, replyOf, takesTurn, drop, hother _ hws]
  | message => simp [replies, waiting, replyOf]
  | malformed => simp [replies, waiting, replyOf]
  | publish =>
    rw [replies, sent_sendsOrDrops, waiting, turn_sendsOrDrops]
    split_ifs <;> simp [replies, waiting, replyOf, Sent.reply?]
  | published => simp [replies, waiting, replyOf]
  | heartbeat => simp [replies, waiting, replyOf]
  | beat =>
    rw [replies, sent_sendsOrDrops, waiting, turn_sendsOrDrops]
    split_ifs <;> simp [replies, waiting, replyOf, Sent.reply?]
  | beaten => simp [replies, waiting, replyOf]

theorem replies_lost (hstep : Steps h (.reply ws false) h') :
    replies h' ws = replies h ws ∧ h'.turn ws = .ended ∧ ∃ topics, waiting h ws = [topics] := by
  cases hstep with
  | @replyFails _ topics hreplying =>
    refine ⟨rfl, Function.update_self .., topics, ?_⟩
    simp [waiting, hreplying]

/-! ## Whole runs -/

/-- What a socket has got after the events: its topics are those that its frames leave, every live message that
was due has gone out on it once and in order up to the one that is in flight or was lost, and every frame has
its reply. -/
structure Served (es : List Event) (h : WsHub) (ws : Nat) : Prop where
  topics : h.sockets.get? ws = (view ws es).topics
  due : .publish ws false ∉ es → lives h ws ++ inFlight h ws = (view ws es).due
  lost : .publish ws false ∈ es → h.sockets.get? ws = none ∧ ∃ m, lives h ws ++ [m] = (view ws es).due
  answered : .reply ws false ∉ es → replies h ws ++ waiting h ws = (view ws es).replies
  unanswered : .reply ws false ∈ es → h.turn ws = .ended ∧ ∃ topics, replies h ws ++ [topics] = (view ws es).replies

/-- A socket that the hub has down, or is sending to, has begun, and one that has ended is not down. -/
structure Inv (es : List Event) (h : WsHub) : Prop where
  nodup : (h.sockets.map Prod.fst).Nodup
  once : ∀ r, h.publishing = some r → r.targets.Nodup
  known : ∀ r, h.publishing = some r → ∀ ws ∈ r.targets, h.turn ws ≠ .absent
  absent : ∀ ws, h.turn ws = .absent → h.sockets.get? ws = none
  ended : ∀ ws, h.turn ws = .ended → h.sockets.get? ws = none
  failed : ∀ ws, .publish ws false ∈ es → h.turn ws ≠ .absent ∧ inFlight h ws = []
  served : ∀ ws, Served es h ws

theorem inv_start : Inv [] start where
  nodup := List.nodup_nil
  once r hr := by cases hr
  known r hr := by cases hr
  absent ws _ := rfl
  ended ws h := by cases h
  failed ws h := by cases h
  served ws := ⟨rfl, fun _ => rfl, (nomatch ·), fun _ => rfl, (nomatch ·)⟩

/-- Only a socket that begins comes to be down. -/
theorem topicsAfter_none (hne : e ≠ .connect ws) : topicsAfter ws none e = none := by
  cases e with
  | connect ws' =>
    have hws : ws' ≠ ws := fun heq => hne (by rw [heq])
    simp [topicsAfter, hws]
  | frame => simp [topicsAfter, afterFrame]
  | _ => simp [topicsAfter]

/-- Apart from its beginning and its frames, nothing adds to the topics of a socket. -/
theorem topicsAfter_eq_some {topics : Option (Finset Topic)} {ts : Finset Topic} (hconnect : e ≠ .connect ws)
    (hframe : ∀ frame, e ≠ .frame ws frame) (h : topicsAfter ws topics e = some ts) : topics = some ts := by
  cases e with
  | connect ws' =>
    have hws : ws' ≠ ws := fun heq => hconnect (by rw [heq])
    rwa [topicsAfter, if_neg hws] at h
  | frame ws' frame =>
    have hws : ws' ≠ ws := fun heq => hframe frame (by rw [heq])
    rwa [topicsAfter, if_neg hws] at h
  | message | published | heartbeat | beaten => exact h
  | _ =>
    simp only [topicsAfter] at h
    split_ifs at h
    exact h

theorem dueOf_none (e : Event) : dueOf none e = [] := by
  cases e <;> rfl

theorem replyOf_none (ws : Nat) (e : Event) : replyOf ws none e = [] := by
  cases e <;> simp [replyOf, afterFrame]

/-- What is dropped stays so, once it has begun. -/
theorem get?_step_none (hstep : Steps h e h') (hbegun : h.turn ws ≠ .absent) (hnone : h.sockets.get? ws = none) :
    h'.sockets.get? ws = none := by
  rw [get?_step hstep, hnone]
  refine topicsAfter_none ?_
  rintro rfl
  cases hstep with
  | connect habsent => exact hbegun habsent

theorem publishing_step (hstep : Steps h e h') {r : Round Live} (hr : h'.publishing = some r) :
    (∃ r', h.publishing = some r' ∧ r.message = r'.message ∧ r.targets.Sublist r'.targets) ∨
      ∃ topic, r.targets = h.targets topic := by
  have hsame (hpublishing : h'.publishing = h.publishing) : ∃ r', h.publishing = some r' ∧
      r.message = r'.message ∧ r.targets.Sublist r'.targets := ⟨r, hpublishing ▸ hr, rfl, .refl _⟩
  cases hstep with
  | message =>
    cases hr
    exact .inr ⟨_, rfl⟩
  | publish hfirst =>
    rw [publishing_sendsOrDrops] at hr
    cases hr
    exact .inl ⟨_, hfirst, rfl, List.sublist_cons_self _ _⟩
  | published => cases hr
  | beat => exact .inl (hsame (publishing_sendsOrDrops ..))
  | _ => exact .inl (hsame rfl)

theorem inFlight_eq_nil : inFlight h ws = [] ↔ ∀ r, h.publishing = some r → ws ∉ r.targets := by
  unfold inFlight
  cases h.publishing with
  | none => simp
  | some r => simp

variable {es : List Event}

theorem Inv.known_step (hinv : Inv es h) (hstep : Steps h e h') {r : Round Live} (hr : h'.publishing = some r)
    (hws : ws ∈ r.targets) : h.turn ws ≠ .absent := by
  rcases publishing_step hstep hr with ⟨r', hr', -, hsub⟩ | ⟨topic, htargets⟩
  · exact hinv.known r' hr' ws (hsub.subset hws)
  · intro habsent
    rw [htargets, mem_targets hinv.nodup, hinv.absent ws habsent] at hws
    obtain ⟨_, hnone, -⟩ := hws
    cases hnone

theorem Inv.absent_step (hinv : Inv es h) (hstep : Steps h e h') (habsent : h'.turn ws = .absent) :
    h'.sockets.get? ws = none := by
  have hnone := hinv.absent ws (absent_of_step hstep habsent)
  rw [get?_step hstep, hnone]
  refine topicsAfter_none ?_
  rintro rfl
  cases hstep with
  | connect =>
    rw [turn_takesTurn, if_pos rfl] at habsent
    cases habsent

theorem Inv.ended_step (hinv : Inv es h) (hstep : Steps h e h') (hended : h'.turn ws = .ended) :
    h'.sockets.get? ws = none := by
  by_cases hbefore : h.turn ws = .ended
  · exact get?_step_none hstep (by simp [hbefore]) (hinv.ended ws hbefore)
  have hws (h₀ : WsHub) (ws' : Nat) (turn : Turn) (hsame : h₀.turn = h.turn)
      (hupdate : (h₀.takesTurn ws' turn).turn ws = .ended) : ws' = ws ∧ turn = .ended := by
    rw [turn_takesTurn, hsame] at hupdate
    split at hupdate
    · exact ⟨‹_›, hupdate⟩
    · exact absurd hupdate hbefore
  have hdropped (ws' : Nat) (hupdate : ((h.drop ws').takesTurn ws' .ended).turn ws = .ended) :
      ((h.drop ws').takesTurn ws' .ended).sockets.get? ws = none := by
    obtain ⟨rfl, -⟩ := hws _ _ _ rfl hupdate
    exact (Dict.get?_pop ..).trans (if_pos rfl)
  cases hstep with
  | connect => cases (hws _ _ _ rfl hended).2
  | frame => cases (hws _ _ _ rfl hended).2
  | frameEnds => exact hdropped _ hended
  | reply => cases (hws _ _ _ rfl hended).2
  | replyFails => exact hdropped _ hended
  | disconnect => exact hdropped _ hended
  | publish =>
    rw [turn_sendsOrDrops] at hended
    exact absurd hended hbefore
  | beat =>
    rw [turn_sendsOrDrops] at hended
    exact absurd hended hbefore
  | _ => exact absurd hended hbefore

/-- Once a send has failed, nothing is in flight to the socket any more. -/
theorem Inv.failed_step (hinv : Inv es h) (hstep : Steps h e h') (hlost : .publish ws false ∈ es ++ [e]) :
    h'.turn ws ≠ .absent ∧ inFlight h' ws = [] := by
  rcases List.mem_append.mp hlost with hbefore | hnow
  · obtain ⟨hbegun, hflight⟩ := hinv.failed ws hbefore
    refine ⟨fun habsent => hbegun (absent_of_step hstep habsent), inFlight_eq_nil.mpr fun r hr hws => ?_⟩
    rcases publishing_step hstep hr with ⟨r', hr', -, hsub⟩ | ⟨topic, htargets⟩
    · exact inFlight_eq_nil.mp hflight r' hr' (hsub.subset hws)
    · rw [htargets, mem_targets hinv.nodup, ((hinv.served ws).lost hbefore).1] at hws
      obtain ⟨_, hnone, -⟩ := hws
      cases hnone
  · cases List.mem_singleton.mp hnow
    obtain ⟨-, hflight, m, hm⟩ := lives_lost hstep hinv.once
    refine ⟨fun habsent => ?_, hflight⟩
    cases hstep with
    | publish hfirst =>
      exact hinv.known _ hfirst ws List.mem_cons_self (absent_of_step (.publish hfirst) habsent)

theorem Inv.served_step (hinv : Inv es h) (hstep : Steps h e h') (ws : Nat) : Served (es ++ [e]) h' ws := by
  have hserved := hinv.served ws
  have hdue (hne : e ≠ .publish ws false) := lives_step hstep hinv.nodup hinv.once hne
  have hview : (view ws (es ++ [e])).due = (view ws es).due ++ dueOf (h.sockets.get? ws) e := by
    rw [view_snoc, hserved.topics]
    rfl
  have hreplies : (view ws (es ++ [e])).replies = (view ws es).replies ++ replyOf ws (h.sockets.get? ws) e := by
    rw [view_snoc, hserved.topics]
    rfl
  refine ⟨?_, fun hkept => ?_, fun hlost => ?_, fun hkept => ?_, fun hlost => ?_⟩
  · rw [get?_step hstep, hserved.topics, view_snoc]
    rfl
  · rw [List.mem_append, not_or] at hkept
    have hne : e ≠ .publish ws false := fun heq => hkept.2 (List.mem_singleton.mpr heq.symm)
    rw [hdue hne, hserved.due hkept.1, hview]
  · rcases List.mem_append.mp hlost with hbefore | hnow
    · obtain ⟨hnone, m, hm⟩ := hserved.lost hbefore
      obtain ⟨hbegun, hflight⟩ := hinv.failed ws hbefore
      have hne : e ≠ .publish ws false := by
        rintro rfl
        obtain ⟨-, -, m', hm'⟩ := lives_lost hstep hinv.once
        rw [hflight] at hm'
        cases hm'
      have hsame := hdue hne
      rw [hflight, (hinv.failed_step hstep hlost).2, hnone, dueOf_none, List.append_nil, List.append_nil,
        List.append_nil] at hsame
      refine ⟨get?_step_none hstep hbegun hnone, m, ?_⟩
      rw [hsame, hm, hview, hnone, dueOf_none, List.append_nil]
    · cases List.mem_singleton.mp hnow
      obtain ⟨hsame, -, m, hm⟩ := lives_lost hstep hinv.once
      have hfirst : .publish ws false ∉ es := by
        intro hbefore
        rw [(hinv.failed ws hbefore).2] at hm
        cases hm
      refine ⟨?_, m, ?_⟩
      · rw [get?_step hstep]
        exact if_pos ⟨rfl, rfl⟩
      · rw [hsame, hview, ← hserved.due hfirst, hm]
        exact (List.append_nil _).symm
  · rw [List.mem_append, not_or] at hkept
    have hne : e ≠ .reply ws false := fun heq => hkept.2 (List.mem_singleton.mpr heq.symm)
    rw [replies_step hstep hne, hserved.answered hkept.1, hreplies]
  · rcases List.mem_append.mp hlost with hbefore | hnow
    · obtain ⟨hended, topics, htopics⟩ := hserved.unanswered hbefore
      have hnone := hinv.ended ws hended
      have hended' := ended_of_step hstep hended
      have hne : e ≠ .reply ws false := by
        rintro rfl
        obtain ⟨-, -, topics', hwaiting⟩ := replies_lost hstep
        simp [waiting, hended] at hwaiting
      have hsame := replies_step hstep hne
      simp only [waiting, hended, hended', hnone, replyOf_none, List.append_nil] at hsame
      refine ⟨hended', topics, ?_⟩
      rw [hsame, htopics, hreplies, hnone, replyOf_none, List.append_nil]
    · cases List.mem_singleton.mp hnow
      obtain ⟨hsame, hended, topics, htopics⟩ := replies_lost hstep
      have hfirst : .reply ws false ∉ es := by
        intro hbefore
        simp [waiting, (hserved.unanswered hbefore).1] at htopics
      refine ⟨hended, topics, ?_⟩
      rw [hsame, hreplies, ← hserved.answered hfirst, htopics]
      exact (List.append_nil _).symm

theorem Inv.step (hinv : Inv es h) (hstep : Steps h e h') : Inv (es ++ [e]) h' where
  nodup := nodup_step hstep hinv.nodup
  once r hr := by
    rcases publishing_step hstep hr with ⟨r', hr', -, hsub⟩ | ⟨topic, htargets⟩
    · exact (hinv.once r' hr').sublist hsub
    · rw [htargets]
      exact hinv.nodup.sublist (List.filter_sublist.map _)
  known _ hr ws hws habsent := hinv.known_step hstep hr hws (absent_of_step hstep habsent)
  absent _ habsent := hinv.absent_step hstep habsent
  ended _ hended := hinv.ended_step hstep hended
  failed _ hlost := hinv.failed_step hstep hlost
  served ws := hinv.served_step hstep ws

end

theorem inv_of_run {es : List Event} {h : WsHub} (hrun : Run (Fires step) start es h) : Inv es h := by
  refine hrun.invariant Inv inv_start ?_
  intro es t e u ht hstep
  exact ht.step (steps_of_step hstep)

/-- However the tasks of the hub take turns, every socket is served. -/
theorem hub_serves {es : List Event} {h : WsHub} (hrun : Run (Fires step) start es h) (ws : Nat) : Served es h ws :=
  (inv_of_run hrun).served ws

/-! Two sockets are down for the alarms, and one of them is lost while a message goes out. -/

def alarmsFrame : Option Json := some (.object [("type", .text "subscribe"), ("topics", .array [.text "alarms", .text "?"])])

def lossInRound : List Event :=
  [.connect 1, .connect 2, .frame 1 alarmsFrame, .frame 2 alarmsFrame, .reply 1 true,
    .message "alarms" (some (.object [("kind", .text "alarm_raised"), ("payload", .object [])])), .publish 1 true,
    .reply 2 true, .publish 2 false, .published]

theorem hub_serves_loss : ∃ h, replay step start lossInRound = some h ∧ Served lossInRound h 1 ∧ Served lossInRound h 2 := by
  have hsome : (replay step start lossInRound).isSome = true := by decide +kernel
  obtain ⟨h, hh⟩ := Option.isSome_iff_exists.mp hsome
  exact ⟨h, hh, hub_serves (run_of_replay hh) 1, hub_serves (run_of_replay hh) 2⟩

/-- The frames that were read from a socket. -/
def framesRead (ws : Nat) (es : List Event) : List (Option Json) :=
  es.filterMap fun
    | .frame ws' frame => if ws' = ws then some frame else none
    | _ => none

theorem framesRead_snoc_frame (ws : Nat) (es : List Event) (frame : Option Json) :
    framesRead ws (es ++ [.frame ws frame]) = framesRead ws es ++ [frame] := by
  simp [framesRead]

theorem framesRead_snoc_of_ne {ws : Nat} {e : Event} (hne : ∀ frame, e ≠ .frame ws frame) (es : List Event) :
    framesRead ws (es ++ [e]) = framesRead ws es := by
  cases e with
  | frame ws' frame =>
    have hws : ws' ≠ ws := by
      rintro rfl
      exact hne frame rfl
    simp [framesRead, hws]
  | _ => simp [framesRead]

/-- The topics of a socket that is down are what its frames make of none. -/
structure Read (es : List Event) (h : WsHub) (ws : Nat) : Prop where
  absent : h.turn ws = .absent → framesRead ws es = []
  topics : ∀ ts, h.sockets.get? ws = some ts → (framesRead ws es).foldl afterFrame (some ∅) = some ts

theorem Read.step {es : List Event} {h h' : WsHub} {ws : Nat} {e : Event} (hread : Read es h ws)
    (hstep : Steps h e h') : Read (es ++ [e]) h' ws := by
  have hget : h'.sockets.get? ws = _ := get?_step hstep
  by_cases hframe : ∃ frame, e = .frame ws frame
  · obtain ⟨frame, rfl⟩ := hframe
    refine ⟨fun habsent => ?_, fun ts hts => ?_⟩
    · have hnow := absent_of_step hstep habsent
      cases hstep with
      | frame hreceiving => simp [hreceiving] at hnow
      | frameEnds hreceiving => simp [hreceiving] at hnow
    · rw [framesRead_snoc_frame, List.foldl_append]
      rw [hts, topicsAfter, if_pos rfl] at hget
      cases hbefore : h.sockets.get? ws with
      | none =>
        rw [hbefore] at hget
        simp [afterFrame] at hget
      | some before =>
        rw [hread.topics before hbefore, hget, hbefore]
        rfl
  · rw [not_exists] at hframe
    refine ⟨fun habsent => ?_, fun ts hts => ?_⟩
    · rw [framesRead_snoc_of_ne hframe]
      exact hread.absent (absent_of_step hstep habsent)
    · rw [framesRead_snoc_of_ne hframe]
      rw [hts] at hget
      by_cases hconnect : e = .connect ws
      · subst hconnect
        rw [topicsAfter, if_pos rfl] at hget
        cases hstep with
        | connect habsent =>
          rw [hread.absent habsent]
          exact hget.symm
      · exact hread.topics ts (topicsAfter_eq_some hconnect hframe hget.symm)

/-- The topics of a socket are what the frames that were read from it make of none. -/
theorem topics_of_frames {es : List Event} {h : WsHub} (hrun : Run (Fires step) start es h) {ws : Nat} {ts : Finset Topic}
    (hdown : h.sockets.get? ws = some ts) : (framesRead ws es).foldl afterFrame (some ∅) = some ts := by
  have hread : Read es h ws := by
    refine hrun.invariant (fun es h => Read es h ws) ⟨fun _ => rfl, fun _ hnone => by cases hnone⟩ ?_
    intro es t e u ht hstep
    exact ht.step (steps_of_step hstep)
  exact hread.topics ts hdown

end WsHub

/-! ## The page at the other end -/

def FrameType.name : FrameType → String
  | .subscribe => "subscribe"
  | .unsubscribe => "unsubscribe"

/-- The frame as `send` puts it on the socket. -/
def Frame.json (f : Frame) : Json :=
  .object [("type", .text f.type.name), ("topics", .array (f.topics.map .text))]

theorem topicsOf_json (f : Frame) : topicsOf [("type", .text f.type.name), ("topics", .array (f.topics.map .text))] =
    some (f.topics.toFinset.filter fun t => topicMatches t) := by
  have hitems : (f.topics.map Json.text).filterMap topicOf = f.topics.filter topicMatches := by
    rw [List.filterMap_map, ← List.filterMap_eq_filter]
    refine List.filterMap_congr fun t _ => ?_
    rfl
  have htopics : topicsOf [("type", .text f.type.name), ("topics", .array (f.topics.map .text))] =
      some ((f.topics.map Json.text).filterMap topicOf).toFinset := by
    rfl
  rw [htopics, hitems, List.toFinset_filter]

/-- The hub reads a frame of the page as a page takes it to. -/
theorem afterFrame_json (topics : Finset Topic) (f : Frame) :
    afterFrame (some topics) (some f.json) = some (hubReads topicMatches topics f) := by
  rw [Frame.json, afterFrame, topicsOf_json, hubReads]
  cases f.type <;> rfl

theorem foldl_afterFrame_json (topics : Finset Topic) (fs : List Frame) :
    (fs.map fun f => some f.json).foldl afterFrame (some topics) = some (fs.foldl (hubReads topicMatches) topics) := by
  induction fs generalizing topics with
  | nil => rfl
  | cons f fs ih =>
    rw [List.map_cons, List.foldl_cons, afterFrame_json]
    exact ih _

def opening : List Event := [.start, .subscribe ⟨["alarms"], 7⟩, .token 1, .opened 0]

def readings : List WsHub.Event := [.connect 3, .frame 3 (some (Frame.json ⟨.subscribe, ["alarms"]⟩))]

end TwinVoice.Web
