import TwinVoice.Lib.Dict
import TwinVoice.Lib.Transition
import Mathlib.Data.List.Chain

/-! # The sessions of an edge node

`SparkplugEdgeNode` publishes from three sides: the network thread of its
MQTT client runs the callbacks, the simulation loop calls `publish_device`,
and a request may ask for a rebirth. They share the lock of the node, but
`publish_device` and `MqttBridge.rebirth` test `connected` before they take
it, and the client is connected before the callback that announces the node
has run. Each section under the lock is one step here, except for `rebirth`,
which is one step for every message: the connection can close and open
meanwhile. A message handed to a client without a socket is lost. -/

namespace TwinVoice.Sparkplug.EdgeNode

open TwinVoice.Lib Transition

/-- What is published; an NBIRTH has the sequence number 0. -/
inductive Message (Values : Type)
  | nbirth (bdSeq : Nat)
  | dbirth (device : String) (values : Values) (seq : Nat)
  | ddata (device : String) (values : Values) (seq : Nat)
  deriving DecidableEq

/-- A connection to the broker: the bdSeq of its will and what was published on it. -/
structure Session (Values : Type) where
  will : Nat
  messages : List (Message Values)
  deriving DecidableEq

/-- What comes of `build_metrics` and of encoding the payload it is for. -/
inductive Encoding
  | unknownDevice
  | unencodable
  | encoded
  deriving DecidableEq

/-- Where the network thread of the client is. -/
inductive Link
  | offline
  /-- CONNECT is sent -/
  | opened
  /-- CONNACK is processed, `_on_connect` is called -/
  | acked
  /-- `_on_connect` has returned -/
  | up
  /-- the socket is closed, `_on_disconnect` is called -/
  | closed
  deriving DecidableEq

def Link.hasSocket : Link → Bool
  | offline | closed => false
  | opened | acked | up => true

/-- Where the simulation loop is in `publish_device`. -/
inductive Loop (Values : Type)
  | idle
  /-- before `if not self.connected` -/
  | stored (device : String) (values : Values)
  /-- before `with self._lock` -/
  | checked (device : String) (values : Values)
  deriving DecidableEq

/-- A `rebirth` that holds the lock, in its loop over `_last`. -/
structure Rebirth where
  network : Bool
  size : Nat
  left : List String
  deriving DecidableEq

/-- The node and its client. The sessions are for the statements only, the newest first. -/
structure Node (Values : Type) where
  last : Dict String Values
  born : List String
  bdSeq : Nat
  seq : Nat
  will : Nat
  link : Link
  connected : Bool
  loop : Loop Values
  requests : Nat
  rebirth : Option Rebirth
  sessions : List (Session Values)
  deriving DecidableEq

inductive Event (Values : Type)
  /-- the client connects to the broker -/
  | connect
  | connack
  /-- `_on_connect` takes the lock -/
  | onConnect
  /-- an NCMD asks for a rebirth -/
  | onMessage
  /-- the connection is lost -/
  | close
  | onDisconnect
  /-- `publish_device` is called -/
  | store (device : String) (values : Values)
  | check
  /-- `publish_device` takes the lock -/
  | publish
  /-- `MqttBridge.rebirth` finds the node connected -/
  | request
  | rebirth
  /-- the next device of a rebirth -/
  | birth
  | finish

section
variable {Values : Type}

namespace Message

def seq : Message Values → Nat
  | nbirth _ => 0
  | dbirth _ _ seq | ddata _ _ seq => seq

def IsNbirth : Message Values → Prop
  | nbirth _ => True
  | _ => False

/-- In a session, `m` may come right after `k`. -/
def Follows (k m : Message Values) : Prop := m.IsNbirth ∨ m.seq = (k.seq + 1) % 256

end Message

namespace Session

def push (s : Session Values) (m : Message Values) : Session Values :=
  { s with messages := s.messages ++ [m] }

def HasBirth (messages : List (Message Values)) (device : String) : Prop :=
  ∃ values seq, Message.dbirth device values seq ∈ messages

/-- What a host application relies on. -/
structure Ordered (s : Session Values) : Prop where
  first : ∀ m ∈ s.messages.head?, m = .nbirth s.will
  consecutive : s.messages.IsChain Message.Follows
  born : ∀ pre device values seq post, s.messages = pre ++ .ddata device values seq :: post →
    HasBirth pre device

end Session

namespace Node

/-- `self._client.publish(..., qos=0)`. -/
def publish (n : Node Values) (m : Message Values) : Node Values :=
  { n with sessions := if n.link.hasSocket then n.sessions.modifyHead (·.push m) else n.sessions }

def nextSeq (n : Node Values) : Node Values := { n with seq := (n.seq + 1) % 256 }

/-- `_publish_dbirth`, and whether it returns: an unknown device raises before the
sequence number is taken, a payload that cannot be encoded after it. -/
def publishDbirth (encode : String → Values → Encoding) (n : Node Values) (device : String) :
    Node Values × Bool :=
  match n.last.get? device with
  | none => (n, false)
  | some values =>
    match encode device values with
    | .unknownDevice => (n, false)
    | .unencodable => (n.nextSeq, false)
    | .encoded =>
      ({ n.nextSeq.publish (.dbirth device values n.nextSeq.seq) with born := n.born.insert device }, true)

/-- `publish_device` under the lock. -/
def publishDevice (encode : String → Values → Encoding) (n : Node Values) (device : String)
    (values : Values) : Node Values :=
  if device ∈ n.born then
    match encode device values with
    | .unknownDevice => n
    | .unencodable => n.nextSeq
    | .encoded => n.nextSeq.publish (.ddata device values n.nextSeq.seq)
  else (n.publishDbirth encode device).1

/-- `rebirth` up to its loop. -/
def announce (n : Node Values) (network : Bool) : Node Values :=
  { ({ n with seq := 0 }.publish (.nbirth n.bdSeq)) with
    born := []
    rebirth := some ⟨network, n.last.length, n.last.map Prod.fst⟩ }

/-- The end of `rebirth`, by a return or an exception. -/
def release (n : Node Values) (network : Bool) : Node Values :=
  { n with
    rebirth := none
    link := if network then .up else n.link }

/-- The network thread is in `rebirth`. -/
def Busy (n : Node Values) : Prop := ∃ r ∈ n.rebirth, r.network = true

instance (n : Node Values) : Decidable n.Busy := inferInstanceAs (Decidable (∃ r ∈ n.rebirth, _))

def step (encode : String → Values → Encoding) (n : Node Values) : Event Values → Option (Node Values)
  | .connect =>
    if n.link = .offline then some { n with link := .opened, sessions := ⟨n.will, []⟩ :: n.sessions }
    else none
  | .connack => if n.link = .opened then some { n with link := .acked, connected := true } else none
  | .onConnect => if n.link = .acked ∧ n.rebirth = none then some (n.announce true) else none
  | .onMessage => if n.link = .up ∧ n.rebirth = none then some (n.announce true) else none
  | .close => if (n.link = .opened ∨ n.link = .up) ∧ ¬ n.Busy then some { n with link := .closed } else none
  | .onDisconnect =>
    if n.link = .closed ∧ n.rebirth = none then
      some { n with
        born := []
        bdSeq := (n.bdSeq + 1) % 256
        will := (n.bdSeq + 1) % 256
        link := .offline
        connected := false }
    else none
  | .store device values =>
    match n.loop with
    | .idle => some { n with last := n.last.set device values, loop := .stored device values }
    | _ => none
  | .check =>
    match n.loop with
    | .stored device values => some { n with loop := if n.connected then .checked device values else .idle }
    | _ => none
  | .publish =>
    match n.loop, n.rebirth with
    | .checked device values, none => some { n.publishDevice encode device values with loop := .idle }
    | _, _ => none
  | .request => if n.connected then some { n with requests := n.requests + 1 } else none
  | .rebirth =>
    if 0 < n.requests ∧ n.rebirth = none then some { n.announce false with requests := n.requests - 1 }
    else none
  | .birth =>
    match n.rebirth with
    | some ⟨network, size, device :: left⟩ =>
      if size = n.last.length then
        let (n', returns) := n.publishDbirth encode device
        some (if returns then { n' with rebirth := some ⟨network, size, left⟩ } else n'.release network)
      else none
    | _ => none
  | .finish =>
    match n.rebirth with
    | some ⟨network, size, left⟩ =>
      -- a dictionary that has grown ends the loop over it with an exception
      if left = [] ∨ size ≠ n.last.length then some (n.release network) else none
    | none => none

/-- A node whose client has not been started. -/
def start : Node Values where
  last := []
  born := []
  bdSeq := 0
  seq := 0
  will := 0
  link := .offline
  connected := false
  loop := .idle
  requests := 0
  rebirth := none
  sessions := []

/-- A connection is open, and nothing has been published on it. -/
def Unannounced (n : Node Values) : Prop :=
  n.link.hasSocket = true ∧ ∃ s ∈ n.sessions.head?, s.messages = []

instance (n : Node Values) : Decidable n.Unannounced :=
  inferInstanceAs (Decidable (_ ∧ ∃ s ∈ n.sessions.head?, _))

end Node

/-- Nothing but a rebirth publishes on a new connection, and the values that are published
can be encoded. -/
def Announcing (encode : String → Values → Encoding) (n : Node Values) : Event Values → Prop
  | .publish | .birth => ¬ n.Unannounced
  | .store device values => encode device values ≠ .unencodable
  | _ => True

/-! ## What a session keeps -/

section
variable {s : Session Values}

theorem Session.Ordered.nil (will : Nat) : (⟨will, []⟩ : Session Values).Ordered where
  first := by simp
  consecutive := .nil
  born := by simp

theorem Session.Ordered.push {m : Message Values} (h : s.Ordered)
    (hfirst : s.messages = [] → m = .nbirth s.will)
    (hseq : ∀ k ∈ s.messages.getLast?, k.Follows m)
    (hborn : ∀ device values seq, m = .ddata device values seq → Session.HasBirth s.messages device) :
    (s.push m).Ordered := by
  refine ⟨?_, ?_, ?_⟩
  · intro k hk
    cases hs : s.messages with
    | nil =>
      rw [Session.push, hs] at hk
      obtain rfl := Option.some.inj hk
      exact hfirst hs
    | cons first rest =>
      rw [Session.push, hs] at hk
      exact h.first k (by rw [hs]; exact hk)
  · refine List.isChain_append.mpr ⟨h.consecutive, .singleton m, ?_⟩
    intro k hk m' hm'
    obtain rfl := Option.some.inj hm'
    exact hseq k hk
  · intro pre device values seq post hsplit
    cases List.eq_nil_or_concat post with
    | inl hnil =>
      subst hnil
      obtain ⟨hpre, hm⟩ := List.append_inj' hsplit rfl
      subst hpre
      exact hborn device values seq (List.singleton_inj.mp hm)
    | inr hconcat =>
      obtain ⟨post', last, rfl⟩ := hconcat
      rw [List.concat_eq_append, ← List.cons_append, ← List.append_assoc] at hsplit
      exact h.born pre device values seq post' (List.append_inj' hsplit rfl).1

end

/-! ## The invariant -/

/-- What is known of the connection that is open: its will, and if anything has been
published on it the number of the last message and a birth for each born device. -/
structure Current (bdSeq seq : Nat) (born : List String) (s : Session Values) : Prop where
  will : s.will = bdSeq
  seq : ∀ m ∈ s.messages.getLast?, m.seq = seq
  born : s.messages ≠ [] → ∀ device ∈ born, Session.HasBirth s.messages device

structure Inv (encode : String → Values → Encoding) (n : Node Values) : Prop where
  ordered : ∀ s ∈ n.sessions, s.Ordered
  will : n.will = n.bdSeq
  opened : n.link.hasSocket = true → n.sessions ≠ []
  current : n.link.hasSocket = true → ∀ s ∈ n.sessions.head?, Current n.bdSeq n.seq n.born s
  last : ∀ device values, n.last.get? device = some values → encode device values ≠ .unencodable
  loop : ∀ device values, n.loop = .stored device values ∨ n.loop = .checked device values →
    encode device values ≠ .unencodable
  busy : n.Busy → n.link.hasSocket = true

section
variable {encode : String → Values → Encoding} {n u : Node Values}

theorem inv_start : Inv encode (Node.start : Node Values) where
  ordered := by simp [Node.start]
  will := rfl
  opened := by simp [Node.start, Link.hasSocket]
  current := by simp [Node.start]
  last := by simp [Node.start]
  loop := by simp [Node.start]
  busy := by simp [Node.start, Node.Busy]

/-- A message with the next number, on a connection that is announced or on none. -/
theorem Inv.sequenced (h : Inv encode n) {m : Message Values} {born : List String}
    (hann : ¬ n.Unannounced) (hm : m.seq = n.nextSeq.seq)
    (hdata : ∀ device values seq, m = .ddata device values seq → device ∈ n.born)
    (hborn : ∀ device ∈ born, device ∈ n.born ∨ ∃ values seq, m = .dbirth device values seq) :
    Inv encode { n.nextSeq.publish m with born := born } := by
  by_cases hsocket : n.link.hasSocket = true
  · cases hs : n.sessions with
    | nil => exact absurd hs (h.opened hsocket)
    | cons s rest =>
      have hcurrent : Current n.bdSeq n.seq n.born s := h.current hsocket s (by rw [hs]; rfl)
      have hne : s.messages ≠ [] := by
        intro hnil
        exact hann ⟨hsocket, s, by rw [hs]; rfl, hnil⟩
      have hpushed : (n.nextSeq.publish m).sessions = s.push m :: rest := by
        show (if n.link.hasSocket then n.sessions.modifyHead _ else n.sessions) = _
        rw [if_pos hsocket, hs]
        rfl
      refine ⟨?_, h.will, fun _ => by simp [hpushed], ?_, h.last, h.loop, h.busy⟩
      · intro s' hs'
        rw [hpushed] at hs'
        rcases List.mem_cons.mp hs' with rfl | hs'
        · refine (h.ordered s (by rw [hs]; exact List.mem_cons_self)).push (fun hnil => absurd hnil hne) ?_ ?_
          · intro k hk
            right
            rw [hm, hcurrent.seq k hk]
            rfl
          · intro device values seq hddata
            exact hcurrent.born hne device (hdata device values seq hddata)
        · exact h.ordered s' (by rw [hs]; exact List.mem_cons_of_mem _ hs')
      · intro _ s' hs'
        rw [hpushed] at hs'
        obtain rfl := Option.some.inj hs'
        refine ⟨hcurrent.will, ?_, ?_⟩
        · intro k hk
          rw [Session.push, List.getLast?_concat] at hk
          obtain rfl := Option.some.inj hk
          exact hm
        · intro _ device hdevice
          rcases hborn device hdevice with hold | ⟨values, seq, hmsg⟩
          · obtain ⟨values, seq, hmem⟩ := hcurrent.born hne device hold
            exact ⟨values, seq, List.mem_append_left _ hmem⟩
          · exact ⟨values, seq, by simp [Session.push, hmsg]⟩
  · have hlost : (n.nextSeq.publish m).sessions = n.sessions := if_neg hsocket
    exact ⟨fun s hs => h.ordered s (hlost ▸ hs), h.will, fun hs => absurd hs hsocket,
      fun hs => absurd hs hsocket, h.last, h.loop, h.busy⟩

/-- `rebirth` announces the node on any connection. -/
theorem Inv.announce (h : Inv encode n) (network : Bool) (hnetwork : network = true → n.link.hasSocket = true) :
    Inv encode (n.announce network) := by
  have hbusy : (n.announce network).Busy → n.link.hasSocket = true := by
    intro ⟨r, hr, hrun⟩
    obtain rfl := Option.some.inj hr
    exact hnetwork hrun
  by_cases hsocket : n.link.hasSocket = true
  · cases hs : n.sessions with
    | nil => exact absurd hs (h.opened hsocket)
    | cons s rest =>
      have hcurrent : Current n.bdSeq n.seq n.born s := h.current hsocket s (by rw [hs]; rfl)
      have hpushed : (n.announce network).sessions = s.push (.nbirth n.bdSeq) :: rest := by
        show (if n.link.hasSocket then n.sessions.modifyHead _ else n.sessions) = _
        rw [if_pos hsocket, hs]
        rfl
      refine ⟨?_, h.will, fun _ => by simp [hpushed], ?_, h.last, h.loop, hbusy⟩
      · intro s' hs'
        rw [hpushed] at hs'
        rcases List.mem_cons.mp hs' with rfl | hs'
        · refine (h.ordered s (by rw [hs]; exact List.mem_cons_self)).push ?_ (fun _ _ => .inl trivial) ?_
          · intro _
            rw [hcurrent.will]
          · intro device values seq hddata
            cases hddata
        · exact h.ordered s' (by rw [hs]; exact List.mem_cons_of_mem _ hs')
      · intro _ s' hs'
        rw [hpushed] at hs'
        obtain rfl := Option.some.inj hs'
        refine ⟨hcurrent.will, ?_, ?_⟩
        · intro k hk
          rw [Session.push, List.getLast?_concat] at hk
          obtain rfl := Option.some.inj hk
          rfl
        · intro _ device hdevice
          cases hdevice
  · have hlost : (n.announce network).sessions = n.sessions := if_neg hsocket
    exact ⟨fun s hs => h.ordered s (hlost ▸ hs), h.will, fun hs => absurd hs hsocket,
      fun hs => absurd hs hsocket, h.last, h.loop, hbusy⟩

theorem Inv.publishDbirth (h : Inv encode n) (hann : ¬ n.Unannounced) (device : String) :
    Inv encode (n.publishDbirth encode device).1 := by
  unfold Node.publishDbirth
  cases hlast : n.last.get? device with
  | none => exact h
  | some values =>
    cases hencode : encode device values with
    | unknownDevice => simpa only [hencode] using h
    | unencodable => exact absurd hencode (h.last device values hlast)
    | encoded =>
      simp only [hencode]
      refine h.sequenced hann rfl (by rintro _ _ _ ⟨⟩) ?_
      intro other hother
      rcases List.mem_insert_iff.mp hother with rfl | hother
      · exact .inr ⟨values, n.nextSeq.seq, rfl⟩
      · exact .inl hother

theorem Inv.publishDevice (h : Inv encode n) (hann : ¬ n.Unannounced) {device : String} {values : Values}
    (hencodable : encode device values ≠ .unencodable) : Inv encode (n.publishDevice encode device values) := by
  unfold Node.publishDevice
  split
  · rename_i hborn
    cases hencode : encode device values with
    | unknownDevice => exact h
    | unencodable => exact absurd hencode hencodable
    | encoded =>
      refine h.sequenced hann rfl ?_ fun other hother => .inl hother
      intro other values' seq hmsg
      cases hmsg
      exact hborn
  · exact h.publishDbirth hann device

/-- The end of a rebirth of the network thread leaves the connection up. -/
theorem Inv.release (h : Inv encode n) {network : Bool} (hbusy : network = true → n.link.hasSocket = true) :
    Inv encode (n.release network) := by
  have hsocket : (n.release network).link.hasSocket = true → n.link.hasSocket = true := by
    intro hs
    cases network with
    | true => exact hbusy rfl
    | false => exact hs
  refine ⟨h.ordered, h.will, fun hs => h.opened (hsocket hs), fun hs => h.current (hsocket hs), h.last,
    h.loop, ?_⟩
  intro ⟨r, hr, _⟩
  cases hr

theorem publishDbirth_link (n : Node Values) (device : String) :
    (n.publishDbirth encode device).1.link = n.link := by
  unfold Node.publishDbirth
  split
  · rfl
  · split <;> rfl

/-- Each step that meets the condition keeps the invariant. -/
theorem inv_step {e : Event Values} (h : Inv encode n) (hok : Announcing encode n e)
    (hstep : n.step encode e = some u) : Inv encode u := by
  cases e with
  | connect =>
    simp only [Node.step] at hstep
    split at hstep
    · rename_i hoff
      cases hstep
      have hnone : ¬ n.Busy := by
        intro hbusy
        have hs := h.busy hbusy
        rw [hoff] at hs
        cases hs
      refine ⟨?_, h.will, fun _ => List.cons_ne_nil _ _, ?_, h.last, h.loop, fun hb => absurd hb hnone⟩
      · intro s hs
        rcases List.mem_cons.mp hs with rfl | hs
        · exact .nil _
        · exact h.ordered s hs
      · intro _ s hs
        obtain rfl := Option.some.inj hs
        exact ⟨h.will, by simp, by simp⟩
    · cases hstep
  | connack =>
    simp only [Node.step] at hstep
    split at hstep
    · rename_i hopen
      cases hstep
      have hsocket : n.link.hasSocket = true := by rw [hopen]; rfl
      exact ⟨h.ordered, h.will, fun _ => h.opened hsocket, fun _ => h.current hsocket, h.last, h.loop,
        fun _ => rfl⟩
    · cases hstep
  | onConnect =>
    simp only [Node.step] at hstep
    split at hstep
    · rename_i hacked
      cases hstep
      exact h.announce true fun _ => by rw [hacked.1]; rfl
    · cases hstep
  | onMessage =>
    simp only [Node.step] at hstep
    split at hstep
    · rename_i hup
      cases hstep
      exact h.announce true fun _ => by rw [hup.1]; rfl
    · cases hstep
  | close =>
    simp only [Node.step] at hstep
    split at hstep
    · rename_i hopen
      cases hstep
      exact ⟨h.ordered, h.will, (fun hs => by cases hs), (fun hs => by cases hs), h.last, h.loop,
        fun hb => absurd hb hopen.2⟩
    · cases hstep
  | onDisconnect =>
    simp only [Node.step] at hstep
    split at hstep
    · rename_i hclosed
      cases hstep
      refine ⟨h.ordered, rfl, fun hs => (by cases hs), (fun hs => by cases hs), h.last, h.loop, ?_⟩
      intro hbusy
      obtain ⟨r, hr, _⟩ := hbusy
      rw [hclosed.2] at hr
      cases hr
    · cases hstep
  | store device values =>
    simp only [Node.step] at hstep
    split at hstep
    · cases hstep
      refine ⟨h.ordered, h.will, h.opened, h.current, ?_, ?_, h.busy⟩
      · intro other values' hget
        rw [Dict.get?_set] at hget
        split at hget
        · rename_i hsame
          cases hget
          exact hsame ▸ hok
        · exact h.last other values' hget
      · intro other values' hloop
        obtain hloop | hloop := hloop <;> cases hloop
        exact hok
    · cases hstep
  | check =>
    simp only [Node.step] at hstep
    split at hstep
    · rename_i device values hstored
      cases hstep
      refine ⟨h.ordered, h.will, h.opened, h.current, h.last, ?_, h.busy⟩
      intro other values' hloop
      refine h.loop other values' (.inl ?_)
      cases hconn : n.connected <;> simp only [hconn] at hloop <;> obtain hloop | hloop := hloop <;> cases hloop
      exact hstored
    · cases hstep
  | publish =>
    simp only [Node.step] at hstep
    split at hstep
    · rename_i device values hchecked _
      cases hstep
      have hpub := h.publishDevice hok (h.loop device values (.inr hchecked))
      refine ⟨hpub.ordered, hpub.will, hpub.opened, hpub.current, hpub.last, ?_, hpub.busy⟩
      intro other values' hloop
      obtain hloop | hloop := hloop <;> cases hloop
    · cases hstep
  | request =>
    simp only [Node.step] at hstep
    split at hstep
    · cases hstep
      exact ⟨h.ordered, h.will, h.opened, h.current, h.last, h.loop, h.busy⟩
    · cases hstep
  | rebirth =>
    simp only [Node.step] at hstep
    split at hstep
    · cases hstep
      have hann := h.announce false (fun hn => by cases hn)
      exact ⟨hann.ordered, hann.will, hann.opened, hann.current, hann.last, hann.loop, hann.busy⟩
    · cases hstep
  | birth =>
    simp only [Node.step] at hstep
    split at hstep
    · rename_i network size device left hrebirth
      split at hstep
      · cases hstep
        have hborn := h.publishDbirth hok device
        have hbusy : network = true → (n.publishDbirth encode device).1.link.hasSocket = true := by
          intro hn
          rw [publishDbirth_link]
          exact h.busy ⟨_, hrebirth, hn⟩
        split
        · refine ⟨hborn.ordered, hborn.will, hborn.opened, hborn.current, hborn.last, hborn.loop, ?_⟩
          intro hleft
          obtain ⟨r, hr, hn⟩ := hleft
          obtain rfl := Option.some.inj hr
          exact hbusy hn
        · exact hborn.release hbusy
      · cases hstep
    · cases hstep
  | finish =>
    simp only [Node.step] at hstep
    split at hstep
    · rename_i network size left hrebirth
      split at hstep
      · cases hstep
        refine h.release fun hn => h.busy ⟨_, hrebirth, hn⟩
      · cases hstep
    · cases hstep

end

instance (encode : String → Values → Encoding) (n : Node Values) (e : Event Values) :
    Decidable (Announcing encode n e) :=
  match e with
  | .publish | .birth => inferInstanceAs (Decidable (¬ _))
  | .store _ _ => inferInstanceAs (Decidable (_ ≠ _))
  | .connect | .connack | .onConnect | .onMessage | .close | .onDisconnect | .check | .request | .rebirth
  | .finish => .isTrue trivial

/-- While nothing but a rebirth publishes on a new connection, every session is in order. -/
theorem sessions_ordered {encode : String → Values → Encoding} {es : List (Event Values)} {n : Node Values}
    (h : Run (Guarded (Fires (Node.step encode)) (Announcing encode)) Node.start es n) :
    ∀ s ∈ n.sessions, s.Ordered := by
  have hinv : Inv encode n := h.guarded inv_start fun _ _ _ ht hok hstep => inv_step ht hok hstep
  exact hinv.ordered

end

/-- A device that has been born, a rebirth on request and a reconnection. -/
theorem sessions_ordered_reconnects :
    let es : List (Event Nat) := [.connect, .connack, .onConnect, .finish, .store "cnc-01" 7, .check, .publish,
      .store "cnc-01" 8, .check, .publish, .onMessage, .birth, .finish, .close, .onDisconnect, .connect,
      .connack, .onConnect, .birth, .finish, .store "cnc-01" 9, .check, .publish]
    ∃ n : Node Nat, replay (Node.step fun _ _ => .encoded) Node.start es = some n ∧ n.sessions =
        [⟨1, [.nbirth 1, .dbirth "cnc-01" 8 1, .ddata "cnc-01" 9 2]⟩,
          ⟨0, [.nbirth 0, .dbirth "cnc-01" 7 1, .ddata "cnc-01" 8 2, .nbirth 0, .dbirth "cnc-01" 8 1]⟩] ∧
      ∀ s ∈ n.sessions, s.Ordered := by
  intro es
  have hrun : (replay (guarded (Node.step fun _ _ => .encoded) (Announcing fun _ _ => .encoded))
      Node.start es).map Node.sessions =
      some [⟨1, [.nbirth 1, .dbirth "cnc-01" 8 1, .ddata "cnc-01" 9 2]⟩,
        ⟨0, [.nbirth 0, .dbirth "cnc-01" 7 1, .ddata "cnc-01" 8 2, .nbirth 0, .dbirth "cnc-01" 8 1]⟩] := by
    decide +kernel
  obtain ⟨n, hn, hsessions⟩ := Option.map_eq_some_iff.mp hrun
  have hguarded := run_of_guarded hn
  exact ⟨n, replay_of_run (hguarded.mono fun _ _ _ hstep => hstep.2), hsessions, sessions_ordered hguarded⟩

/-- A call of `publish_device` that found the node connected takes the lock after the
connection is lost, so the device counts as born; a later call takes it between the next
CONNACK and its callback. The new session starts with the data of a device not born in it. -/
theorem data_before_birth :
    let es : List (Event Nat) := [.connect, .connack, .onConnect, .finish, .store "cnc-01" 7, .check, .close,
      .onDisconnect, .publish, .connect, .connack, .store "cnc-01" 8, .check, .publish]
    ∃ n : Node Nat, Run (Fires (Node.step fun _ _ => .encoded)) Node.start es n ∧
      n.sessions = [⟨1, [.ddata "cnc-01" 8 2]⟩, ⟨0, [.nbirth 0]⟩] ∧ ¬ ∀ s ∈ n.sessions, s.Ordered := by
  intro es
  have hrun : (replay (Node.step fun _ _ => .encoded) Node.start es).map Node.sessions =
      some [⟨1, [.ddata "cnc-01" 8 2]⟩, ⟨0, [.nbirth 0]⟩] := by
    decide +kernel
  obtain ⟨n, hn, hsessions⟩ := Option.map_eq_some_iff.mp hrun
  refine ⟨n, run_of_replay hn, hsessions, ?_⟩
  intro hordered
  have hs : (⟨1, [.ddata "cnc-01" 8 2]⟩ : Session Nat).Ordered := hordered _ (by rw [hsessions]; simp)
  have hfirst := hs.first (.ddata "cnc-01" 8 2) rfl
  cases hfirst

end TwinVoice.Sparkplug.EdgeNode
