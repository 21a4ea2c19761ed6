import TwinVoice.Lib.Transition
import TwinVoice.Web.LiveSocket

/-! # One live socket

A page that is not stopped makes one attempt at a time: it awaits a token for
the present generation, or waits for its timer, or has a socket. Two things
break this. `start` leaves the socket that there is where it is, and a token
that fails to come schedules the next attempt even if nobody has waited for it
any more. -/

namespace TwinVoice.Web

open TwinVoice.Lib TwinVoice.Lib.Transition

namespace Page

/-- Neither closed nor closing: the socket gives out messages, or will once it is open. -/
def Alive (p : Page) (i : Nat) : Prop := p.readyState i = some .connecting ∨ p.readyState i = some .open

/-- Some live subscription is for the topic. -/
def Wanted (p : Page) (t : Topic) : Prop := ∃ s ∈ p.live, t ∈ s.topics

def held (p : Page) (t : Topic) : Nat := (p.live.flatMap Subscription.topics).count t

def timerWaits (p : Page) : Bool := p.client.timer.any fun t => t.generation = p.client.generation

/-- What may yet become a socket of the present generation, and what is one. -/
def attempts (p : Page) : Nat :=
  p.awaiting.count p.client.generation + p.timerWaits.toNat + p.client.ws.isSome.toNat

theorem held_ne_zero {p : Page} {t : Topic} : p.held t ≠ 0 ↔ p.Wanted t := by
  rw [held, ← Nat.pos_iff_ne_zero, List.count_pos_iff, List.mem_flatMap]
  rfl

theorem attempts_eq_zero {p : Page} : p.attempts = 0 ↔
    p.awaiting.count p.client.generation = 0 ∧ p.timerWaits = false ∧ p.client.ws = none := by
  unfold attempts
  cases p.timerWaits <;> cases p.client.ws <;> simp

/-! ## Sending -/

@[simp] theorem readyState_onSocket (p : Page) (i : Nat) (f : WebSocket → WebSocket) (j : Nat) :
    (p.onSocket i f).readyState j =
      if i = j then (p.sockets[j]?).map fun ws => (f ws).readyState else p.readyState j := by
  unfold readyState onSocket
  dsimp only
  rw [List.getElem?_modify]
  cases p.sockets[j]? <;> split <;> rfl

/-- Frames are all that sending changes. -/
theorem send_eq (p : Page) (type : FrameType) (topics : List Topic) :
    ∃ sockets, p.send type topics = { p with sockets := sockets } ∧
      ∀ i, sockets[i]? = (p.sockets[i]?).map fun ws =>
        if p.client.ws = some i ∧ topics ≠ [] ∧ ws.readyState = .open
        then { ws with frames := ws.frames ++ [⟨type, topics⟩] } else ws := by
  unfold send
  split
  · rename_i hnone
    refine ⟨p.sockets, rfl, fun i => ?_⟩
    simp [hnone]
  · rename_i i hws
    split
    · rename_i hopen
      refine ⟨_, rfl, fun j => ?_⟩
      rw [List.getElem?_modify, hws]
      by_cases hj : i = j
      · subst hj
        cases hsocket : p.sockets[i]? with
        | none => rfl
        | some ws =>
          have hstate : ws.readyState = .open := by simpa [readyState, hsocket] using hopen.2
          simp [hopen.1, hstate]
      · simp [hj]
    · rename_i hnot
      refine ⟨p.sockets, rfl, fun j => ?_⟩
      cases hsocket : p.sockets[j]? with
      | none => rfl
      | some ws =>
        have hsame : ¬(some i = some j ∧ topics ≠ [] ∧ ws.readyState = .open) := by
          rintro ⟨hij, htopics, hstate⟩
          obtain rfl := Option.some.inj hij
          exact hnot ⟨htopics, by rw [readyState, hsocket, Option.map_some, hstate]⟩
        rw [Option.map_some, hws, if_neg hsame]

theorem readyState_send (p : Page) (type : FrameType) (topics : List Topic) (i : Nat) :
    (p.send type topics).readyState i = p.readyState i := by
  obtain ⟨sockets, heq, hsockets⟩ := p.send_eq type topics
  rw [heq, readyState, hsockets, readyState]
  cases p.sockets[i]? with
  | none => rfl
  | some ws =>
    simp only [Option.map_some]
    split <;> rfl

/-! ## One attempt at a time -/

structure Attempts (p : Page) : Prop where
  alive : ∀ i, p.Alive i → p.client.ws = some i
  known : ∀ i, p.client.ws = some i → (p.readyState i).isSome
  once : p.attempts ≤ 1
  rests : p.client.stopped = true → p.attempts = 0
  asked : ∀ g ∈ p.awaiting, g ≤ p.client.generation
  timed : ∀ t, p.client.timer = some t → t.generation ≤ p.client.generation

theorem attempts_empty : Attempts empty := by
  refine ⟨fun i h => ?_, fun i h => ?_, by decide, fun _ => by decide, fun g h => ?_, fun t h => ?_⟩
  · rcases h with h | h <;> cases h
  · cases h
  · cases h
  · cases h

/-- What sending and subscribing leave alone is all that there is to attempts. -/
theorem Attempts.same {p q : Page} (h : Attempts p) (hws : q.client.ws = p.client.ws)
    (htimer : q.client.timer = p.client.timer) (hstopped : q.client.stopped = p.client.stopped)
    (hgeneration : q.client.generation = p.client.generation) (hawaiting : q.awaiting = p.awaiting)
    (hstate : ∀ i, q.readyState i = p.readyState i) : Attempts q := by
  have hattempts : q.attempts = p.attempts := by
    unfold attempts timerWaits
    rw [hws, htimer, hgeneration, hawaiting]
  refine ⟨fun i hi => ?_, fun i hi => ?_, ?_, fun hs => ?_, ?_, ?_⟩
  · rw [Alive, hstate] at hi
    rw [hws]
    exact h.alive i hi
  · rw [hstate]
    exact h.known i (hws ▸ hi)
  · rw [hattempts]
    exact h.once
  · rw [hattempts]
    exact h.rests (hstopped ▸ hs)
  · rw [hawaiting, hgeneration]
    exact h.asked
  · rw [htimer, hgeneration]
    exact h.timed

theorem Attempts.send {p : Page} (h : Attempts p) (type : FrameType) (topics : List Topic) :
    Attempts (p.send type topics) := by
  obtain ⟨sockets, heq, -⟩ := p.send_eq type topics
  exact h.same (by rw [heq]) (by rw [heq]) (by rw [heq]) (by rw [heq]) (by rw [heq]) (p.readyState_send type topics)

/-- No attempt of an older generation counts. -/
theorem Attempts.stale {p : Page} (h : Attempts p) {generation : Nat} (hnew : p.client.generation < generation) :
    p.awaiting.count generation = 0 ∧ ∀ t, p.client.timer = some t → t.generation ≠ generation := by
  refine ⟨List.count_eq_zero.mpr fun hmem => ?_, fun t ht heq => ?_⟩
  · have := h.asked _ hmem
    omega
  · have := h.timed t ht
    omega

theorem Attempts.start {p : Page} (h : Attempts p) (hws : p.client.ws = none) : Attempts p.start := by
  obtain ⟨hcount, htimer⟩ := h.stale (Nat.lt_succ_self _)
  have hwaits : p.start.timerWaits = false := by
    unfold timerWaits
    cases ht : p.start.client.timer with
    | none => rfl
    | some t =>
      have hold : t.generation ≠ p.start.client.generation := htimer t ht
      simp [hold]
  have hattempts : p.start.attempts = 1 := by
    have hsockets : p.start.client.ws.isSome = false := by
      rw [Option.isSome_eq_false_iff, Option.isNone_iff_eq_none]
      exact hws
    unfold attempts
    rw [hwaits, hsockets]
    show (p.awaiting ++ [p.client.generation + 1]).count (p.client.generation + 1) + 0 + 0 = 1
    rw [List.count_append, hcount]
    simp
  refine ⟨h.alive, h.known, by omega, fun hs => ?_, fun g hg => ?_, fun t ht => ?_⟩
  · cases hs
  · have hg : g ∈ p.awaiting ++ [p.client.generation + 1] := hg
    show g ≤ p.client.generation + 1
    rcases List.mem_append.mp hg with hold | hlast
    · have := h.asked g hold
      omega
    · have := List.mem_singleton.mp hlast
      omega
  · have := h.timed t ht
    show t.generation ≤ p.client.generation + 1
    omega

/-- A socket that changes and does not come back to life. -/
theorem Attempts.onSocket {p : Page} (h : Attempts p) (i : Nat) {f : WebSocket → WebSocket}
    (hf : ∀ ws, p.sockets[i]? = some ws → (f ws).readyState = .connecting ∨ (f ws).readyState = .open → p.Alive i) :
    Attempts (p.onSocket i f) := by
  refine ⟨fun j hj => ?_, fun j hj => ?_, h.once, h.rests, h.asked, h.timed⟩
  · by_cases hij : i = j
    · subst hij
      refine h.alive i ?_
      cases hsocket : p.sockets[i]? with
      | none =>
        rw [Alive, readyState_onSocket, if_pos rfl, hsocket] at hj
        rcases hj with hj | hj <;> cases hj
      | some ws =>
        rw [Alive, readyState_onSocket, if_pos rfl, hsocket] at hj
        exact hf ws hsocket (hj.imp Option.some.inj Option.some.inj)
    · rw [Alive, readyState_onSocket, if_neg hij] at hj
      exact h.alive j hj
  · rw [readyState_onSocket]
    have hknown := h.known j hj
    split
    · rw [readyState] at hknown
      rwa [Option.isSome_map] at hknown ⊢
    · exact hknown

theorem Attempts.stop {p : Page} (h : Attempts p) : Attempts p.stop := by
  obtain ⟨hcount, htimer⟩ := h.stale (Nat.lt_succ_self _)
  have hparts : p.stop.client = { p.client with
      stopped := true, generation := p.client.generation + 1, timer := none, ws := none } ∧
      p.stop.awaiting = p.awaiting := by
    unfold Page.stop
    split <;> exact ⟨rfl, rfl⟩
  have hattempts : p.stop.attempts = 0 := by
    unfold attempts timerWaits
    rw [hparts.1, hparts.2, hcount]
    rfl
  have hdead (i : Nat) : ¬p.stop.Alive i := by
    intro hi
    unfold Page.stop at hi
    split at hi
    · rename_i hws
      have hcurrent := h.alive i hi
      rw [hws] at hcurrent
      cases hcurrent
    · rename_i j hws
      rw [Alive, readyState_onSocket] at hi
      by_cases hij : j = i
      · subst hij
        rw [if_pos rfl] at hi
        dsimp only at hi
        cases hsocket : p.sockets[j]? with
        | none =>
          rw [hsocket] at hi
          rcases hi with hi | hi <;> cases hi
        | some ws =>
          have hclosed : ws.close.readyState = .closed ∨ ws.close.readyState = .closing := by
            unfold WebSocket.close
            split
            · exact .inl ‹_›
            · exact .inr rfl
          rw [hsocket, Option.map_some] at hi
          rcases hi with hi | hi <;> rcases hclosed with hc | hc <;> rw [hc] at hi <;> cases hi
      · rw [if_neg hij] at hi
        have hcurrent := h.alive i hi
        rw [hws] at hcurrent
        exact hij (Option.some.inj hcurrent)
  refine ⟨fun i hi => absurd hi (hdead i), fun i hi => ?_, by omega, fun _ => hattempts, fun g hg => ?_, fun t ht => ?_⟩
  · rw [hparts.1] at hi
    cases hi
  · rw [hparts.2] at hg
    rw [hparts.1]
    exact Nat.le_succ_of_le (h.asked g hg)
  · rw [hparts.1] at ht
    cases ht

/-! ## A token comes, or fails to come -/

def settled (p : Page) (g : Nat) : Page := { p with awaiting := p.awaiting.erase g }

theorem attempts_settled_of_ne (p : Page) {g : Nat} (hg : g ≠ p.client.generation) :
    (p.settled g).attempts = p.attempts := by
  unfold attempts timerWaits settled
  dsimp only
  rw [List.count_erase_of_ne (Ne.symm hg)]

theorem attempts_settled {p : Page} (hg : p.client.generation ∈ p.awaiting) :
    (p.settled p.client.generation).attempts + 1 = p.attempts := by
  have hpos := List.count_pos_iff.mpr hg
  unfold attempts timerWaits settled
  dsimp only
  rw [List.count_erase_self]
  omega

theorem Attempts.settled {p : Page} (h : Attempts p) {g : Nat} (hg : g ∈ p.awaiting) : Attempts (p.settled g) := by
  have hfewer : (p.settled g).attempts ≤ p.attempts := by
    by_cases heq : g = p.client.generation
    · subst heq
      have := attempts_settled hg
      omega
    · rw [attempts_settled_of_ne p heq]
  have hrests := h.rests
  have honce := h.once
  exact ⟨h.alive, h.known, by omega, fun hs => by have := hrests hs; omega,
    fun x hx => h.asked x (List.mem_of_mem_erase hx), h.timed⟩

/-- Where no attempt is under way, another one may be scheduled. -/
theorem Attempts.scheduleReconnect {p : Page} (h : Attempts p)
    (hfree : p.client.stopped = false → p.awaiting.count p.client.generation = 0 ∧ p.client.ws = none) :
    Attempts p.scheduleReconnect := by
  unfold Page.scheduleReconnect
  split
  · exact h
  · rename_i hstopped
    obtain ⟨hcount, hws⟩ := hfree (by simpa using hstopped)
    refine ⟨h.alive, h.known, ?_, fun hs => absurd hs hstopped, h.asked, fun t ht => ?_⟩
    · unfold attempts timerWaits
      simp [hcount, hws]
    · cases ht
      exact Nat.le_refl _

theorem readyState_append {p q : Page} {ws : WebSocket} (h : q.sockets = p.sockets ++ [ws]) (i : Nat) :
    q.readyState i = if i = p.sockets.length then some ws.readyState else p.readyState i := by
  unfold readyState
  rw [h, List.getElem?_append]
  rcases Nat.lt_trichotomy i p.sockets.length with hlt | heq | hgt
  · rw [if_pos hlt, if_neg (by omega)]
  · subst heq
    simp
  · rw [if_neg (by omega), if_neg (by omega), List.getElem?_eq_none (by simp; omega),
      List.getElem?_eq_none (by omega)]

/-- Where no attempt is under way, a socket may be created. -/
theorem Attempts.creates {p q : Page} (h : Attempts p) (hfree : p.attempts = 0) (hrunning : p.client.stopped = false)
    (hclient : q.client = { p.client with ws := some p.sockets.length })
    (hsockets : q.sockets = p.sockets ++ [WebSocket.new]) (hawaiting : q.awaiting = p.awaiting) : Attempts q := by
  obtain ⟨hcount, hwaits, hws⟩ := attempts_eq_zero.mp hfree
  have hattempts : q.attempts = 1 := by
    have hwaits' : q.timerWaits = false := by
      unfold timerWaits at hwaits ⊢
      rw [hclient]
      exact hwaits
    rw [Page.attempts, hwaits', hawaiting, hclient, hcount]
    rfl
  refine ⟨fun i hi => ?_, fun i hi => ?_, by omega, fun hs => ?_, ?_, ?_⟩
  · rw [Alive, readyState_append hsockets] at hi
    rw [hclient]
    split at hi
    · rename_i hlast
      rw [hlast]
    · have hcurrent := h.alive i hi
      rw [hws] at hcurrent
      cases hcurrent
  · rw [hclient] at hi
    rw [readyState_append hsockets, if_pos (Option.some.inj hi).symm]
    rfl
  · rw [hclient, hrunning] at hs
    cases hs
  · rw [hawaiting, hclient]
    exact h.asked
  · rw [hclient]
    exact h.timed

theorem Attempts.token {p : Page} (h : Attempts p) {g : Nat} (hg : g ∈ p.awaiting) :
    Attempts ((p.settled g).connected g) := by
  have hsettled := h.settled hg
  unfold connected
  split
  · exact hsettled
  · rename_i heq
    obtain rfl : g = p.client.generation := not_not.mp heq
    have hcounted := attempts_settled hg
    have honce := h.once
    refine hsettled.creates (by omega) ?_ rfl rfl rfl
    cases hstopped : p.client.stopped with
    | true =>
      have := h.rests hstopped
      omega
    | false => exact hstopped

/-- A token that fails to come does no harm where it was waited for, where the page
is stopped, and where another attempt waits for its timer. -/
theorem Attempts.noToken {p : Page} (h : Attempts p) {g : Nat} (hg : g ∈ p.awaiting)
    (hquiet : g = p.client.generation ∨ p.client.stopped = true ∨ p.timerWaits = true) :
    Attempts (p.settled g).scheduleReconnect := by
  refine (h.settled hg).scheduleReconnect fun hrunning => ?_
  rcases hquiet with rfl | hstopped | hwaits
  · have hcounted := attempts_settled hg
    have honce := h.once
    obtain ⟨hcount, -, hws⟩ := attempts_eq_zero.mp (show (p.settled p.client.generation).attempts = 0 by omega)
    exact ⟨hcount, hws⟩
  · rw [show (p.settled g).client.stopped = p.client.stopped from rfl, hstopped] at hrunning
    cases hrunning
  · have honce := (h.settled hg).once
    have hwaits : (p.settled g).timerWaits = true := hwaits
    unfold attempts at honce
    rw [hwaits] at honce
    cases hws : (p.settled g).client.ws with
    | none => exact ⟨by simp at honce; omega, rfl⟩
    | some i =>
      rw [hws] at honce
      simp at honce

theorem Attempts.timeout {p : Page} (h : Attempts p) {t : Timeout} (ht : p.client.timer = some t) :
    Attempts ({ p with client := { p.client with timer := none } }.connect t.generation) := by
  have hattempts : ({ p with client := { p.client with timer := none } }.connect t.generation).attempts = p.attempts := by
    have hwaits : p.timerWaits = decide (t.generation = p.client.generation) := by
      rw [timerWaits, ht, Option.any_some]
    unfold attempts
    rw [hwaits]
    show (p.awaiting ++ [t.generation]).count p.client.generation + 0 + _ = _
    rw [List.count_append]
    by_cases hg : t.generation = p.client.generation
    · simp [hg]
      rfl
    · simp [hg]
      rfl
  have honce := h.once
  refine ⟨h.alive, h.known, by omega, fun hs => by have := h.rests hs; omega, fun g hg => ?_, fun t ht => ?_⟩
  · have hg : g ∈ p.awaiting ++ [t.generation] := hg
    rcases List.mem_append.mp hg with hold | hlast
    · exact h.asked g hold
    · rw [List.mem_singleton.mp hlast]
      exact h.timed t ht
  · cases ht

/-- The socket of the page is gone. -/
theorem Attempts.loses {p q : Page} (h : Attempts p) {i : Nat} (hws : p.client.ws = some i)
    (hdead : p.readyState i = some .closed) (hclient : q.client = { p.client with ws := none })
    (hsockets : q.sockets = p.sockets) (hawaiting : q.awaiting = p.awaiting) :
    Attempts q ∧ q.attempts = 0 := by
  have hattempts : q.attempts = 0 := by
    have honce := h.once
    unfold attempts at honce
    rw [hws] at honce
    simp only [Option.isSome_some, Bool.toNat_true] at honce
    unfold attempts timerWaits
    rw [hawaiting, hclient]
    unfold timerWaits at honce
    simp only [Option.isSome_none, Bool.toNat_false]
    omega
  have hstate (j : Nat) : q.readyState j = p.readyState j := by
    unfold readyState
    rw [hsockets]
  refine ⟨⟨fun j hj => ?_, fun j hj => ?_, by omega, fun _ => hattempts, ?_, ?_⟩, hattempts⟩
  · rw [Alive, hstate] at hj
    have hcurrent := h.alive j hj
    obtain rfl := Option.some.inj (hws.symm.trans hcurrent)
    rw [hdead] at hj
    rcases hj with hj | hj <;> cases hj
  · rw [hclient] at hj
    cases hj
  · rw [hawaiting, hclient]
    exact h.asked
  · rw [hclient]
    exact h.timed

theorem Attempts.closed {p : Page} (h : Attempts p) {i : Nat} (hi : (p.readyState i).isSome) :
    Attempts ((p.onSocket i fun ws => { ws with readyState := .closed }).onclose i) := by
  have hsocket : Attempts (p.onSocket i fun ws => { ws with readyState := .closed }) := by
    refine h.onSocket i fun ws _ hstate => ?_
    rcases hstate with hstate | hstate <;> cases hstate
  unfold onclose
  split
  · exact hsocket
  · rename_i hws
    have hdead : (p.onSocket i fun ws => { ws with readyState := .closed }).readyState i = some .closed := by
      rw [readyState_onSocket, if_pos rfl]
      rw [readyState, Option.isSome_map] at hi
      obtain ⟨ws, hws⟩ := Option.isSome_iff_exists.mp hi
      rw [hws]
      rfl
    obtain ⟨hlost, hfree⟩ := hsocket.loses (not_not.mp hws) hdead
      (q := { (p.onSocket i fun ws => { ws with readyState := .closed }) with
        client := { p.client with ws := none }, status := some .closed }) rfl rfl rfl
    refine hlost.scheduleReconnect fun _ => ?_
    exact ⟨(attempts_eq_zero.mp hfree).1, rfl⟩

theorem Attempts.opened {p : Page} (h : Attempts p) {i : Nat} (hi : p.readyState i = some .connecting) :
    Attempts (p.onSocket i fun ws => { ws with readyState := .open }).onopen := by
  have hsocket : Attempts (p.onSocket i fun ws => { ws with readyState := .open }) := h.onSocket i fun _ _ _ => .inl hi
  have hopen : Attempts { (p.onSocket i fun ws => { ws with readyState := .open }) with
      client := { p.client with attempt := 0 }, status := some .open } :=
    hsocket.same rfl rfl rfl rfl rfl fun _ => rfl
  exact hopen.send _ _

theorem Attempts.closing {p : Page} (h : Attempts p) {i : Nat} (hi : p.readyState i = some .open) :
    Attempts (p.onSocket i WebSocket.close) := h.onSocket i fun _ _ _ => .inr hi

end Page

/-- `start` finds no socket, and a token fails to come only where it is waited for,
where the page is stopped, or where the next attempt waits for its timer anyway. -/
def Orderly (p : Page) : Event → Prop
  | .start => p.client.ws = none
  | .noToken g => g = p.client.generation ∨ p.client.stopped = true ∨ p.timerWaits = true
  | _ => True

theorem attempts_step {p q : Page} {e : Event} (h : p.Attempts) (horderly : Orderly p e) (hstep : step p e = some q) :
    q.Attempts := by
  cases e with
  | start =>
    cases hstep
    exact h.start horderly
  | stop =>
    cases hstep
    exact h.stop
  | subscribe s =>
    cases hstep
    refine Page.Attempts.send ?_ _ _
    exact h.same rfl rfl rfl rfl rfl fun _ => rfl
  | unsubscribe s =>
    obtain ⟨-, hq⟩ := Option.ite_none_right_eq_some.mp hstep
    cases hq
    refine Page.Attempts.send ?_ _ _
    exact h.same rfl rfl rfl rfl rfl fun _ => rfl
  | token g =>
    obtain ⟨hg, hq⟩ := Option.ite_none_right_eq_some.mp hstep
    cases hq
    exact h.token hg
  | noToken g =>
    obtain ⟨hg, hq⟩ := Option.ite_none_right_eq_some.mp hstep
    cases hq
    exact h.noToken hg horderly
  | timeout =>
    obtain ⟨t, ht, rfl⟩ := Option.map_eq_some_iff.mp hstep
    exact h.timeout ht
  | opened i =>
    obtain ⟨hi, hq⟩ := Option.ite_none_right_eq_some.mp hstep
    cases hq
    exact h.opened hi
  | message i m =>
    obtain ⟨-, hq⟩ := Option.ite_none_right_eq_some.mp hstep
    cases hq
    cases m with
    | malformed => exact h
    | heartbeat => exact h.same rfl rfl rfl rfl rfl fun _ => rfl
    | other => exact h.same rfl rfl rfl rfl rfl fun _ => rfl
  | closing i =>
    obtain ⟨hi, hq⟩ := Option.ite_none_right_eq_some.mp hstep
    cases hq
    exact h.closing hi
  | closed i =>
    obtain ⟨hi, hq⟩ := Option.ite_none_left_eq_some.mp hstep
    cases hq
    exact h.closed (Option.isSome_iff_ne_none.mpr fun hnone => hi (.inl hnone))

/-! ## Topics -/

/-- The frames have a hub, whichever topics it accepts, know of these. -/
def Tells (frames : List Frame) (wanted : Topic → Prop) : Prop :=
  ∀ accepts t, t ∈ frames.foldl (hubReads accepts) ∅ ↔ accepts t = true ∧ wanted t

theorem tells_nil : Tells [] fun _ => False := by
  intro accepts t
  simp

theorem Tells.congr {frames : List Frame} {wanted wanted' : Topic → Prop} (h : Tells frames wanted)
    (same : ∀ t, wanted t ↔ wanted' t) : Tells frames wanted' := fun accepts t => by rw [h accepts t, same t]

theorem Tells.subscribe {frames : List Frame} {wanted : Topic → Prop} (h : Tells frames wanted) (topics : List Topic) :
    Tells (frames ++ [⟨.subscribe, topics⟩]) fun t => wanted t ∨ t ∈ topics := by
  intro accepts t
  rw [List.foldl_append, List.foldl_cons, List.foldl_nil]
  show t ∈ frames.foldl (hubReads accepts) ∅ ∪ topics.toFinset.filter (fun t => accepts t) ↔ _
  rw [Finset.mem_union, h accepts t, Finset.mem_filter, List.mem_toFinset]
  tauto

theorem Tells.unsubscribe {frames : List Frame} {wanted : Topic → Prop} (h : Tells frames wanted) (topics : List Topic) :
    Tells (frames ++ [⟨.unsubscribe, topics⟩]) fun t => wanted t ∧ t ∉ topics := by
  intro accepts t
  rw [List.foldl_append, List.foldl_cons, List.foldl_nil]
  show t ∈ frames.foldl (hubReads accepts) ∅ \ topics.toFinset.filter (fun t => accepts t) ↔ _
  rw [Finset.mem_sdiff, h accepts t, Finset.mem_filter, List.mem_toFinset]
  tauto

namespace Page

/-- The client counts the live subscriptions, and the hub has heard of them on the open socket. -/
structure Told (p : Page) : Prop where
  counted : p.client.topics.Counts p.held
  silent : ∀ (i : Nat) (ws : WebSocket), p.sockets[i]? = some ws → ws.readyState = .connecting → ws.frames = []
  told : ∀ (i : Nat) (ws : WebSocket), p.sockets[i]? = some ws → ws.readyState = .open → Tells ws.frames p.Wanted

theorem told_empty : Told empty := by
  refine ⟨fun t => rfl, fun i ws hws => ?_, fun i ws hws => ?_⟩
  · cases hws
  · cases hws

/-- No subscription comes or goes, no socket opens and nothing is sent. -/
theorem Told.quiet {p q : Page} (h : Told p) (htopics : q.client.topics = p.client.topics) (hlive : q.live = p.live)
    (hsockets : ∀ (i : Nat) (ws : WebSocket), q.sockets[i]? = some ws →
      ws.readyState = .connecting ∨ ws.readyState = .open → p.sockets[i]? = some ws ∨ ws = .new) : Told q := by
  have hheld : q.held = p.held := by
    unfold held
    rw [hlive]
  have hwanted : q.Wanted = p.Wanted := by
    unfold Wanted
    rw [hlive]
  refine ⟨by rw [htopics, hheld]; exact h.counted, fun i ws hws hstate => ?_, fun i ws hws hstate => ?_⟩
  · rcases hsockets i ws hws (.inl hstate) with hold | rfl
    · exact h.silent i ws hold hstate
    · rfl
  · rcases hsockets i ws hws (.inr hstate) with hold | rfl
    · rw [hwanted]
      exact h.told i ws hold hstate
    · cases hstate

theorem Told.onSocket {p : Page} (h : Told p) (i : Nat) {f : WebSocket → WebSocket}
    (hf : ∀ ws, (f ws).readyState = .closing ∨ (f ws).readyState = .closed) : Told (p.onSocket i f) := by
  refine h.quiet rfl rfl fun j ws hws hstate => ?_
  have hws : (p.sockets.modify i f)[j]? = some ws := hws
  rw [List.getElem?_modify] at hws
  obtain ⟨ws', hws', rfl⟩ := Option.map_eq_some_iff.mp hws
  by_cases hij : i = j
  · rw [if_pos hij] at hstate
    rcases hf ws' with hc | hc <;> rw [hc] at hstate <;> rcases hstate with hs | hs <;> cases hs
  · rw [if_neg hij]
    exact .inl hws'

theorem close_state (ws : WebSocket) : ws.close.readyState = .closing ∨ ws.close.readyState = .closed := by
  unfold WebSocket.close
  split
  · exact .inr ‹_›
  · exact .inl rfl

/-- What becomes of a socket when something is sent. -/
theorem of_send {p : Page} {type : FrameType} {topics : List Topic} {i : Nat} {ws : WebSocket}
    (h : (p.send type topics).sockets[i]? = some ws) :
    ∃ ws', p.sockets[i]? = some ws' ∧ ws.readyState = ws'.readyState ∧
      ws.frames = if p.client.ws = some i ∧ topics ≠ [] ∧ ws'.readyState = .open
        then ws'.frames ++ [⟨type, topics⟩] else ws'.frames := by
  obtain ⟨sockets, heq, hsockets⟩ := p.send_eq type topics
  rw [heq] at h
  have h : sockets[i]? = some ws := h
  rw [hsockets] at h
  obtain ⟨ws', hws', rfl⟩ := Option.map_eq_some_iff.mp h
  refine ⟨ws', hws', ?_, ?_⟩
  · split <;> rfl
  · split <;> rfl

theorem client_send (p : Page) (type : FrameType) (topics : List Topic) :
    (p.send type topics).client = p.client ∧ (p.send type topics).live = p.live := by
  obtain ⟨sockets, heq, -⟩ := p.send_eq type topics
  rw [heq]
  exact ⟨rfl, rfl⟩

/-- The subscriptions have changed, and the open socket is told what is different. -/
theorem Told.sends {p q : Page} (h : Told p) (hattempts : Attempts p) {type : FrameType} {topics : List Topic}
    (hcounted : q.client.topics.Counts q.held) (hws : q.client.ws = p.client.ws) (hsockets : q.sockets = p.sockets)
    (htells : ∀ frames, Tells frames p.Wanted →
      Tells (if topics ≠ [] then frames ++ [⟨type, topics⟩] else frames) q.Wanted) : Told (q.send type topics) := by
  obtain ⟨hclient, hlive⟩ := q.client_send type topics
  have hheld : (q.send type topics).held = q.held := by
    unfold held
    rw [hlive]
  have hwanted : (q.send type topics).Wanted = q.Wanted := by
    unfold Wanted
    rw [hlive]
  refine ⟨by rw [hclient, hheld]; exact hcounted, fun i ws hsocket hstate => ?_, fun i ws hsocket hstate => ?_⟩
  · obtain ⟨ws', hws', hsame, hframes⟩ := of_send hsocket
    rw [hsame] at hstate
    rw [hframes, if_neg (by rw [hstate]; simp)]
    exact h.silent i ws' (hsockets ▸ hws') hstate
  · obtain ⟨ws', hws', hsame, hframes⟩ := of_send hsocket
    rw [hsame] at hstate
    rw [hsockets] at hws'
    have hcurrent : q.client.ws = some i := by
      rw [hws]
      refine hattempts.alive i (.inr ?_)
      rw [readyState, hws', Option.map_some, hstate]
    have hsent := htells ws'.frames (h.told i ws' hws' hstate)
    rw [hwanted, hframes]
    simpa [hcurrent, hstate] using hsent

theorem wanted_append {p q : Page} {s : Subscription} (h : q.live = p.live ++ [s]) (t : Topic) :
    q.held t = p.held t + s.topics.count t ∧ (q.Wanted t ↔ p.Wanted t ∨ t ∈ s.topics) := by
  have hheld : q.held t = p.held t + s.topics.count t := by
    unfold held
    rw [h, List.flatMap_append, List.count_append, List.flatMap_singleton]
  refine ⟨hheld, ?_⟩
  rw [← held_ne_zero, ← held_ne_zero, hheld, ← List.count_pos_iff]
  omega

theorem Told.subscribe {p : Page} (h : Told p) (hattempts : Attempts p) (s : Subscription) : Told (p.subscribe s) := by
  obtain ⟨hcounts, hadded⟩ := h.counted.acquire s.topics
  refine h.sends hattempts (hcounts.congr fun t => ((wanted_append rfl t).1).symm) rfl rfl fun frames htells => ?_
  have hmore (t : Topic) : p.Wanted t ∨ t ∈ (p.client.topics.acquire s.topics).2 ↔ p.Wanted t ∨ t ∈ s.topics := by
    rw [hadded t, ← held_ne_zero]
    tauto
  have hafter (t : Topic) : p.Wanted t ∨ t ∈ (p.client.topics.acquire s.topics).2 ↔ _ :=
    (hmore t).trans ((wanted_append (q := { p with live := p.live ++ [s] }) rfl t).2).symm
  split
  · exact (htells.subscribe _).congr hafter
  · rename_i hnone
    refine htells.congr fun t => Iff.trans ?_ (hafter t)
    rw [not_not.mp hnone]
    simp

/-- The subscriptions are those that are left with the one that ends. -/
theorem wanted_erase {p q : Page} {s : Subscription} (hs : s ∈ p.live) (h : q.live = p.live.erase s) (t : Topic) :
    p.held t = q.held t + s.topics.count t ∧ (p.Wanted t ↔ q.Wanted t ∨ t ∈ s.topics) := by
  have hheld : p.held t = q.held t + s.topics.count t := by
    have hperm := ((List.perm_cons_erase hs).flatMap_right Subscription.topics).count_eq t
    unfold held
    rw [h, hperm, List.flatMap_cons, List.count_append, Nat.add_comm]
  refine ⟨hheld, ?_⟩
  rw [← held_ne_zero, ← held_ne_zero, hheld, ← List.count_pos_iff]
  omega

theorem Told.unsubscribe {p : Page} (h : Told p) (hattempts : Attempts p) {s : Subscription} (hs : s ∈ p.live) :
    Told (p.unsubscribe s) := by
  let q : Page := { p with live := p.live.erase s }
  have hparts (t : Topic) := wanted_erase (q := q) hs rfl t
  obtain ⟨hcounts, hremoved⟩ := (h.counted.congr fun t => (hparts t).1).release
  refine h.sends hattempts hcounts rfl rfl fun frames htells => ?_
  have hafter (t : Topic) : p.Wanted t ∧ t ∉ (p.client.topics.release s.topics).2 ↔ q.Wanted t := by
    rw [(hparts t).2, hremoved t, ← held_ne_zero]
    tauto
  split
  · exact (htells.unsubscribe _).congr hafter
  · rename_i hnone
    refine htells.congr fun t => Iff.trans ?_ (hafter t)
    rw [not_not.mp hnone]
    simp

/-- The socket that opens is told of every topic that the client counts. -/
theorem Told.opened {p : Page} (h : Told p) (hattempts : Attempts p) {i : Nat} (hi : p.readyState i = some .connecting) :
    Told (p.onSocket i fun ws => { ws with readyState := .open }).onopen := by
  let q : Page := { (p.onSocket i fun ws => { ws with readyState := .open }) with
    client := { p.client with attempt := 0 }, status := some .open }
  have hcurrent : p.client.ws = some i := hattempts.alive i (.inl hi)
  have hkeys (t : Topic) : t ∈ p.client.topics.map Prod.fst ↔ p.Wanted t := by
    rw [h.counted.mem_keys, held_ne_zero]
  obtain ⟨hclient, hlive⟩ := q.client_send .subscribe (p.client.topics.map Prod.fst)
  have hheld : (q.send .subscribe (p.client.topics.map Prod.fst)).held = p.held := by
    unfold held
    rw [hlive]
    rfl
  have hwanted : (q.send .subscribe (p.client.topics.map Prod.fst)).Wanted = p.Wanted := by
    unfold Wanted
    rw [hlive]
    rfl
  -- Any other socket is dead, since the one that opens is the present one.
  have hother (j : Nat) (ws : WebSocket) (hws : q.sockets[j]? = some ws) :
      i = j ∧ (∃ ws', p.sockets[i]? = some ws' ∧ ws = { ws' with readyState := .open }) ∨
        i ≠ j ∧ p.sockets[j]? = some ws := by
    have hws : (p.sockets.modify i fun ws => { ws with readyState := .open })[j]? = some ws := hws
    rw [List.getElem?_modify] at hws
    obtain ⟨ws', hws', rfl⟩ := Option.map_eq_some_iff.mp hws
    by_cases hij : i = j
    · subst hij
      exact .inl ⟨rfl, ws', hws', by rw [if_pos rfl]⟩
    · exact .inr ⟨hij, by rw [if_neg hij]; exact hws'⟩
  show Told (q.send .subscribe (p.client.topics.map Prod.fst))
  refine ⟨by rw [hclient, hheld]; exact h.counted, fun j ws hsocket hstate => ?_, fun j ws hsocket hstate => ?_⟩
  · obtain ⟨ws', hws', hsame, hframes⟩ := of_send hsocket
    rw [hsame] at hstate
    rw [hframes, if_neg (by rw [hstate]; simp)]
    rcases hother j ws' hws' with ⟨-, old, -, rfl⟩ | ⟨-, hold⟩
    · cases hstate
    · exact h.silent j ws' hold hstate
  · obtain ⟨ws', hws', hsame, hframes⟩ := of_send hsocket
    rw [hsame] at hstate
    rcases hother j ws' hws' with ⟨rfl, old, hold, rfl⟩ | ⟨hij, hold⟩
    · have hempty : old.frames = [] := by
        refine h.silent i old hold ?_
        rw [readyState, hold] at hi
        exact Option.some.inj hi
      rw [hwanted, hframes]
      simp only [hempty, List.nil_append]
      split
      · exact ((tells_nil.subscribe _).congr fun t => by rw [hkeys t]; simp)
      · rename_i hnone
        have hnil : p.client.topics.map Prod.fst = [] := by
          by_contra hne
          exact hnone ⟨hcurrent, hne, trivial⟩
        exact tells_nil.congr fun t => by rw [← hkeys t, hnil]; simp
    · have halive := hattempts.alive j (.inr (by rw [readyState, hold, Option.map_some, hstate]))
      exact absurd (Option.some.inj (hcurrent.symm.trans halive)) hij

end Page

theorem told_step {p q : Page} {e : Event} (h : p.Told) (hattempts : p.Attempts) (hstep : step p e = some q) :
    q.Told := by
  have hkeep (i : Nat) (ws : WebSocket) (hws : p.sockets[i]? = some ws) :
      ws.readyState = .connecting ∨ ws.readyState = .open → p.sockets[i]? = some ws ∨ ws = .new := fun _ => .inl hws
  cases e with
  | start =>
    cases hstep
    exact h.quiet rfl rfl hkeep
  | stop =>
    cases hstep
    unfold Page.stop
    split
    · exact h.quiet rfl rfl hkeep
    · refine Page.Told.onSocket ?_ _ Page.close_state
      exact h.quiet rfl rfl hkeep
  | subscribe s =>
    cases hstep
    exact h.subscribe hattempts s
  | unsubscribe s =>
    obtain ⟨hs, hq⟩ := Option.ite_none_right_eq_some.mp hstep
    cases hq
    exact h.unsubscribe hattempts hs
  | token g =>
    obtain ⟨-, hq⟩ := Option.ite_none_right_eq_some.mp hstep
    cases hq
    unfold Page.connected
    split
    · exact h.quiet rfl rfl hkeep
    · refine h.quiet rfl rfl fun i ws hws hstate => ?_
      have hws : (p.sockets ++ [WebSocket.new])[i]? = some ws := hws
      rw [List.getElem?_append] at hws
      split at hws
      · exact .inl hws
      · exact .inr (List.mem_singleton.mp (List.mem_of_getElem? hws))
  | noToken g =>
    obtain ⟨-, hq⟩ := Option.ite_none_right_eq_some.mp hstep
    cases hq
    unfold Page.scheduleReconnect
    split <;> exact h.quiet rfl rfl hkeep
  | timeout =>
    obtain ⟨t, ht, rfl⟩ := Option.map_eq_some_iff.mp hstep
    exact h.quiet rfl rfl hkeep
  | opened i =>
    obtain ⟨hi, hq⟩ := Option.ite_none_right_eq_some.mp hstep
    cases hq
    exact h.opened hattempts hi
  | message i m =>
    obtain ⟨-, hq⟩ := Option.ite_none_right_eq_some.mp hstep
    cases hq
    cases m with
    | malformed => exact h
    | heartbeat => exact h.quiet rfl rfl hkeep
    | other => exact h.quiet rfl rfl hkeep
  | closing i =>
    obtain ⟨-, hq⟩ := Option.ite_none_right_eq_some.mp hstep
    cases hq
    exact h.onSocket i Page.close_state
  | closed i =>
    obtain ⟨-, hq⟩ := Option.ite_none_left_eq_some.mp hstep
    cases hq
    have hsocket : (p.onSocket i fun ws => { ws with readyState := .closed }).Told := h.onSocket i fun _ => .inr rfl
    have hsame (j : Nat) (ws : WebSocket)
        (hws : (p.onSocket i fun ws => { ws with readyState := .closed }).sockets[j]? = some ws) :
        ws.readyState = .connecting ∨ ws.readyState = .open →
          (p.onSocket i fun ws => { ws with readyState := .closed }).sockets[j]? = some ws ∨ ws = .new := fun _ => .inl hws
    unfold Page.onclose
    split
    · exact hsocket
    · unfold Page.scheduleReconnect
      split <;> exact hsocket.quiet rfl rfl hsame

/-! ## Every order of events -/

structure Page.Sound (p : Page) : Prop where
  attempts : p.Attempts
  told : p.Told

theorem sound_of_run {p : Page} {es : List Event} (hrun : Run (Guarded (Fires step) Orderly) Page.empty es p) :
    p.Sound := by
  refine hrun.guarded ⟨Page.attempts_empty, Page.told_empty⟩ ?_
  intro q e r hq horderly hstep
  exact ⟨attempts_step hq.attempts horderly hstep, told_step hq.told hq.attempts hstep⟩

/-- As long as what happens is orderly: at most one socket is alive and none once
the page is stopped, and on an open socket of the page the hub knows of the
topics of the live subscriptions. -/
theorem one_live_socket {p : Page} {es : List Event} (hrun : Run (Guarded (Fires step) Orderly) Page.empty es p) :
    (∀ i j, p.Alive i → p.Alive j → i = j) ∧
    (p.client.stopped = true → ∀ i, ¬p.Alive i) ∧
    ∀ i ws, p.client.ws = some i → p.sockets[i]? = some ws → ws.readyState = .open →
      ∀ accepts t, t ∈ ws.subscribed accepts ↔ accepts t = true ∧ p.Wanted t := by
  obtain ⟨hattempts, htold⟩ := sound_of_run hrun
  refine ⟨fun i j hi hj => ?_, fun hstopped i hi => ?_, fun i ws _ hws hopen => htold.told i ws hws hopen⟩
  · exact Option.some.inj ((hattempts.alive i hi).symm.trans (hattempts.alive j hj))
  · have hnone := (Page.attempts_eq_zero.mp (hattempts.rests hstopped)).2.2
    rw [hattempts.alive i hi] at hnone
    cases hnone

/-! The connection is lost and comes back. -/

instance decidableOrderly (p : Page) (e : Event) : Decidable (Orderly p e) := by
  cases e <;> unfold Orderly <;> infer_instance

def lossAndReturn : List Event :=
  [.start, .token 1, .opened 0, .subscribe ⟨["alarms"], 7⟩, .closed 0, .timeout, .token 1, .opened 1]

theorem one_live_socket_returns : ∃ p, Run (Guarded (Fires step) Orderly) Page.empty lossAndReturn p ∧
    p.client.ws = some 1 ∧ p.readyState 1 = some .open ∧
    ∀ ws, p.sockets[1]? = some ws → ws.readyState = .open →
      ∀ accepts t, t ∈ ws.subscribed accepts ↔ accepts t = true ∧ p.Wanted t := by
  have hreplays : (replay (guarded step Orderly) Page.empty lossAndReturn).map
      (fun p => (p.client.ws, p.readyState 1)) = some (some 1, some .open) := by decide
  obtain ⟨p, hp, hends⟩ := Option.map_eq_some_iff.mp hreplays
  obtain ⟨hws, hstate⟩ := Prod.mk.inj hends
  have hrun : Run (Guarded (Fires step) Orderly) Page.empty lossAndReturn p := run_of_guarded hp
  exact ⟨p, hrun, hws, hstate, fun ws hsocket hopen => (one_live_socket hrun).2.2 1 ws hws hsocket hopen⟩

/-- The page is mounted, unmounted and mounted again, and the token of the first
time fails to come. -/
def lateRejection : List Event :=
  [.start, .stop, .start, .noToken 1, .token 3, .opened 0, .timeout, .token 3, .opened 1]

theorem two_live_sockets : ¬∀ es p, Run (Fires step) Page.empty es p → ∀ i j, p.Alive i → p.Alive j → i = j := by
  intro h
  have hreplays : (replay step Page.empty lateRejection).map
      (fun p => (p.readyState 0, p.readyState 1)) = some (some .open, some .open) := by decide
  obtain ⟨p, hp, hends⟩ := Option.map_eq_some_iff.mp hreplays
  obtain ⟨hfirst, hsecond⟩ := Prod.mk.inj hends
  exact absurd (h lateRejection p (run_of_replay hp) 0 1 (.inr hfirst) (.inr hsecond)) (by decide)

end TwinVoice.Web
