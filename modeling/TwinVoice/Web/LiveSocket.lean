import Mathlib.Algebra.Group.Nat.Defs
import Mathlib.Data.Finset.Basic
import TwinVoice.Lib.Counting

/-! # The live connection of a page

`ws.ts` with what it works on: the sockets that it has created, the tokens that
it waits for and the subscriptions that are live. A socket stops giving out
messages when its `close` is called, and it opens in the same task in which its
`onopen` runs. On the other side the hub of `/ws/live` reads the frames of each
socket in the order in which they were sent. -/

namespace TwinVoice.Web

open TwinVoice.Lib

abbrev Topic := String

inductive ReadyState
  | connecting | «open» | closing | closed
  deriving DecidableEq

inductive FrameType
  | subscribe | unsubscribe
  deriving DecidableEq

structure Frame where
  type : FrameType
  topics : List Topic

/-- A socket, with the frames that were sent on it. -/
structure WebSocket where
  readyState : ReadyState
  frames : List Frame

def WebSocket.new : WebSocket := ⟨.connecting, []⟩

/-- `close()`. -/
def WebSocket.close (ws : WebSocket) : WebSocket :=
  if ws.readyState = .closed then ws else { ws with readyState := .closing }

/-- One turn of `WsHub.handle`: what the hub then has the socket down for. -/
def hubReads (accepts : Topic → Bool) (topics : Finset Topic) (frame : Frame) : Finset Topic :=
  let named := frame.topics.toFinset.filter fun t => accepts t
  match frame.type with
  | .subscribe => topics ∪ named
  | .unsubscribe => topics \ named

/-- The topics of a socket at the hub, once its frames are read. -/
def WebSocket.subscribed (accepts : Topic → Bool) (ws : WebSocket) : Finset Topic :=
  ws.frames.foldl (hubReads accepts) ∅

inductive Message
  | malformed | heartbeat | other

abbrev Handler := Nat

inductive Status
  | connecting | «open» | closed

structure Timeout where
  generation : Nat
  delayMs : Nat

/-- The fields of the class; a socket is known by its place among those created. -/
structure LiveSocket where
  ws : Option Nat
  attempt : Nat
  timer : Option Timeout
  stopped : Bool
  generation : Nat
  topics : Dict Topic Nat
  handlers : List Handler

structure Subscription where
  topics : List Topic
  handler : Handler
  deriving DecidableEq

/-- The client and what goes on around it: the sockets in the order of their
creation, the generations that await a token, the subscriptions that are live
and the handlers that were called. -/
structure Page where
  client : LiveSocket
  sockets : List WebSocket
  awaiting : List Nat
  live : List Subscription
  status : Option Status
  heartbeats : Nat
  called : List Handler

def maxBackoffMs : Nat := 30000

namespace Page

def empty : Page := ⟨⟨none, 0, none, true, 0, [], []⟩, [], [], [], none, 0, []⟩

/-- The socket changes where it stands. -/
def onSocket (p : Page) (i : Nat) (f : WebSocket → WebSocket) : Page := { p with sockets := p.sockets.modify i f }

def readyState (p : Page) (i : Nat) : Option ReadyState := (p.sockets[i]?).map WebSocket.readyState

/-- `send`. -/
def send (p : Page) (type : FrameType) (topics : List Topic) : Page :=
  match p.client.ws with
  | none => p
  | some i =>
    if topics ≠ [] ∧ p.readyState i = some .open then
      p.onSocket i fun ws => { ws with frames := ws.frames ++ [⟨type, topics⟩] }
    else p

/-- `connect`, as far as the token. -/
def connect (p : Page) (generation : Nat) : Page :=
  { p with awaiting := p.awaiting ++ [generation], status := some .connecting }

def start (p : Page) : Page :=
  { p with client := { p.client with stopped := false, generation := p.client.generation + 1 } }.connect
    (p.client.generation + 1)

def stop (p : Page) : Page :=
  let stopped := { p with
    client := { p.client with stopped := true, generation := p.client.generation + 1, timer := none, ws := none } }
  match p.client.ws with
  | none => stopped
  | some i => stopped.onSocket i WebSocket.close

def subscribe (p : Page) (s : Subscription) : Page :=
  let after := p.client.topics.acquire s.topics
  let handlers := if s.handler ∈ p.client.handlers then p.client.handlers else p.client.handlers ++ [s.handler]
  { p with client := { p.client with topics := after.1, handlers := handlers }, live := p.live ++ [s] }.send
    .subscribe after.2

/-- The function that `subscribe` returns. -/
def unsubscribe (p : Page) (s : Subscription) : Page :=
  let after := p.client.topics.release s.topics
  let handlers := p.client.handlers.filter fun h => h ≠ s.handler
  { p with client := { p.client with topics := after.1, handlers := handlers }, live := p.live.erase s }.send
    .unsubscribe after.2

def scheduleReconnect (p : Page) : Page :=
  if p.client.stopped then p
  else { p with client := { p.client with
    attempt := p.client.attempt + 1
    timer := some ⟨p.client.generation, min maxBackoffMs (1000 * 2 ^ p.client.attempt)⟩ } }

/-- `connect`, from the token on. -/
def connected (p : Page) (generation : Nat) : Page :=
  if generation ≠ p.client.generation then p
  else { p with client := { p.client with ws := some p.sockets.length }, sockets := p.sockets ++ [WebSocket.new] }

def onopen (p : Page) : Page :=
  { p with client := { p.client with attempt := 0 }, status := some .open }.send .subscribe
    (p.client.topics.map Prod.fst)

/-- `dispatch`. -/
def dispatch (p : Page) : Message → Page
  | .malformed => p
  | .heartbeat => { p with heartbeats := p.heartbeats + 1 }
  | .other => { p with called := p.called ++ p.client.handlers }

def onclose (p : Page) (i : Nat) : Page :=
  if p.client.ws ≠ some i then p
  else { p with client := { p.client with ws := none }, status := some .closed }.scheduleReconnect

end Page

/-! ## What happens to a page -/

inductive Event
  | start
  | stop
  | subscribe (s : Subscription)
  | unsubscribe (s : Subscription)
  | token (generation : Nat)
  | noToken (generation : Nat)
  | timeout
  | opened (i : Nat)
  | message (i : Nat) (m : Message)
  | closing (i : Nat)
  | closed (i : Nat)

/-- A promise settles once, a subscription ends once, and of a socket there is
what its state allows: it opens from `CONNECTING`, has messages while it is
`OPEN`, and closes once. -/
def step (p : Page) : Event → Option Page
  | .start => some p.start
  | .stop => some p.stop
  | .subscribe s => some (p.subscribe s)
  | .unsubscribe s => if s ∈ p.live then some (p.unsubscribe s) else none
  | .token g =>
    if g ∈ p.awaiting then some ({ p with awaiting := p.awaiting.erase g }.connected g) else none
  | .noToken g =>
    if g ∈ p.awaiting then some { p with awaiting := p.awaiting.erase g }.scheduleReconnect else none
  | .timeout => p.client.timer.map fun t => { p with client := { p.client with timer := none } }.connect t.generation
  | .opened i =>
    if p.readyState i = some .connecting
    then some (p.onSocket i fun ws => { ws with readyState := .open }).onopen else none
  | .message i m => if p.readyState i = some .open then some (p.dispatch m) else none
  | .closing i =>
    if p.readyState i = some .open then some (p.onSocket i WebSocket.close) else none
  | .closed i =>
    if p.readyState i = none ∨ p.readyState i = some .closed then none
    else some ((p.onSocket i fun ws => { ws with readyState := .closed }).onclose i)

end TwinVoice.Web
