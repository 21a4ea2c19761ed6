import TwinVoice.Voice.Gate
import TwinVoice.Voice.Transcript

/-! # What a bare confirmation refers to

A read-back waits for ten seconds, and what is said meanwhile does not cancel
it. So "confirm" may run an action that was read back some turns ago. It does
not while every utterance that finds a read-back waiting in its session
answers it: then each pending action belongs to the turn that its session took
last, and a session has one of them at most. -/

namespace TwinVoice.Voice

open TwinVoice.Lib TwinVoice.Lib.Transition TwinVoice.Nlu

variable {W : Type}

/-- The action was read back, in the turn that the session took last. -/
structure ReadBackLast (s : Plant W) (sessionId : Uuid) (a : VoiceAction) : Prop where
  said : ∃ p, Event.readBack a p ∈ s.history
  last : latestTurn s.db sessionId = some a.turnId

/-- What a confirm phrase runs was read back in the turn before it. -/
def Binds (w : Wiring) (s : Plant W) : Occurrence W → Prop
  | .request env actor (.utterance data) =>
    isConfirm w.grammar.tables w.catalogue data.text →
      ∀ id tool params, Event.toolRun (some id) tool params ∈ (afterUtterance w env actor data s.db).log →
        ∃ session db' a, opened env actor data s.db = some (session, db') ∧ a.id = id ∧
          ReadBackLast s session.id a
  | _ => True

/-- The confirm phrases bind to the last read-back, and nothing else is left to confirm. -/
structure BindsToLast (w : Wiring) (s : Plant W) : Prop where
  runs : ∀ o, Binds w s o
  leaves : ∀ sessionId now a, pendingForSession s.db sessionId now = some a → ReadBackLast s sessionId a

/-- The read-back that waits in the session of the utterance. -/
def waiting (env : Env W) (actor : CurrentUser) (data : UtteranceIn) (db : Database W) :
    Option VoiceAction :=
  (opened env actor data db).bind fun (session, _) => pendingForSession db session.id env.now

/-- An utterance that finds a read-back waiting is a control phrase other than "repeat". -/
def Answers (w : Wiring) (s : Plant W) : Occurrence W → Prop
  | .request env actor (.utterance data) =>
    waiting env actor data s.db = none ∨
      (controlWord w.grammar.tables w.catalogue data.text ≠ none ∧
        controlWord w.grammar.tables w.catalogue data.text ≠ some .repeat)
  | _ => True

instance (w : Wiring) (s : Plant W) (o : Occurrence W) : Decidable (Answers w s o) :=
  match o with
  | .request _ _ (.utterance _) => inferInstanceAs (Decidable (_ ∨ _))
  | .request _ _ (.confirm _ _) => inferInstanceAs (Decidable True)
  | .request _ _ (.cancel _) => inferInstanceAs (Decidable True)
  | .elsewhere _ _ => inferInstanceAs (Decidable True)

/-- Every pending action is the read-back of the last turn of its session. -/
structure Bound (s : Plant W) : Prop where
  last : ∀ a ∈ s.db.actions.rows, a.status = .pending →
    ∃ sessionId, sessionIdOf s.db a = some sessionId ∧ ReadBackLast s sessionId a
  timed : ∀ a ∈ s.db.actions.rows, a.status = .pending → a.expiresAt.isSome
  single : ∀ a ∈ s.db.actions.rows, ∀ b ∈ s.db.actions.rows, a.status = .pending → b.status = .pending →
    a.turnId = b.turnId → a = b

theorem sessionIdOf_append {db db' : Database W} {more : List (Uuid × Uuid)} {a : VoiceAction}
    {sessionId : Uuid} (horder : order db'.turns = order db.turns ++ more)
    (h : sessionIdOf db a = some sessionId) : sessionIdOf db' a = some sessionId := by
  rw [sessionIdOf_eq_some] at h ⊢
  rw [horder]
  exact List.mem_append_left _ h

theorem ReadBackLast.stays {s t : Plant W} {sessionId : Uuid} {a : VoiceAction} {more : List Event}
    (h : ReadBackLast s sessionId a) (hlatest : latestTurn t.db sessionId = latestTurn s.db sessionId)
    (hhistory : t.history = s.history ++ more) : ReadBackLast t sessionId a := by
  obtain ⟨p, hsaid⟩ := h.said
  exact ⟨⟨p, hhistory ▸ List.mem_append_left _ hsaid⟩, hlatest.trans h.last⟩

/-- Requests that take no turn only settle actions. -/
theorem Bound.stays {s t : Plant W} {more : List Event} (h : Bound s)
    (horder : order t.db.turns = order s.db.turns)
    (hrows : ∀ a ∈ t.db.actions.rows, a.status = .pending → a ∈ s.db.actions.rows)
    (hhistory : t.history = s.history ++ more) : Bound t := by
  refine ⟨fun a ha hp => ?_, fun a ha hp => h.timed a (hrows a ha hp) hp, fun a ha b hb hp hp' => ?_⟩
  · obtain ⟨sessionId, hsession, hlast⟩ := h.last a (hrows a ha hp) hp
    refine ⟨sessionId, ?_, hlast.stays (latestTurn_congr horder sessionId) hhistory⟩
    have hsame : order t.db.turns = order s.db.turns ++ [] := by rw [horder, List.append_nil]
    exact sessionIdOf_append hsame hsession
  · exact h.single a (hrows a ha hp) b (hrows b hb hp') hp hp'

theorem pendingForSession_of_open {db : Database W} {sessionId : Uuid} {now : Instant}
    {b : VoiceAction} (hb : b ∈ db.actions.rows) (hp : b.status = .pending)
    (htimed : b.expiresAt.isSome) (hopen : b.windowClosed now = false)
    (hsession : sessionIdOf db b = some sessionId) :
    ∃ a, pendingForSession db sessionId now = some a := by
  rw [← Option.isSome_iff_exists, Option.isSome_iff_ne_none]
  unfold pendingForSession
  rw [Ne, newest_eq_none]
  refine List.ne_nil_of_mem (Table.mem_select.mpr ⟨hb, ?_⟩)
  obtain ⟨t, ht⟩ := Option.isSome_iff_exists.mp htimed
  unfold VoiceAction.windowClosed at hopen
  rw [ht] at hopen
  simp only [decide_eq_false_iff_not] at hopen
  simp only [hp, ht, hsession, decide_true, Bool.true_and, Bool.and_true, decide_eq_true_eq]
  exact Int.not_le.mp hopen

theorem open_of_pendingForSession {db : Database W} {sessionId : Uuid} {now : Instant}
    {a : VoiceAction} (h : pendingForSession db sessionId now = some a) :
    a.windowClosed now = false := by
  obtain ⟨-, hp⟩ := Table.mem_select.mp (newest_mem h)
  simp only [Bool.and_eq_true] at hp
  unfold VoiceAction.windowClosed
  cases ht : a.expiresAt with
  | none => rfl
  | some t =>
    rw [ht] at hp
    exact decide_eq_false (Int.not_le.mpr (of_decide_eq_true hp.1.2))

/-- What a control phrase finds is a pending action of its session. -/
theorem Bound.heard {s : Plant W} (h : Bound s) {w : Wiring} {env : Env W} {actor : CurrentUser}
    {data : UtteranceIn} {session : VoiceSession} {db : Database W} {a : VoiceAction}
    (hheard : heard w env actor data s.db = some (session, db))
    (hp : pendingForSession db session.id env.now = some a) :
    a ∈ s.db.actions.rows ∧ a.status = .pending ∧ ReadBackLast s session.id a := by
  obtain ⟨-, hactions, horder⟩ := heard_some hheard
  obtain ⟨hfind, hpending, hsession⟩ := pendingForSession_some hp
  have hmem : a ∈ (expireStale s.db env.now).actions.rows := hactions ▸ Table.mem_of_find hfind
  obtain ⟨hrow, -⟩ := mem_expireStale hmem hpending
  obtain ⟨sessionId, hbefore, hlast⟩ := h.last a hrow hpending
  have hsame := sessionIdOf_append horder hbefore
  rw [hsession] at hsame
  cases hsame
  exact ⟨hrow, hpending, hlast⟩

/-- A read-back that waits in the session of an utterance that answers it is settled by it. -/
theorem Bound.answered {s : Plant W} (h : Bound s) {w : Wiring} {env : Env W} {actor : CurrentUser}
    {data : UtteranceIn} {session : VoiceSession} {db' : Database W} {t : Table VoiceAction}
    {b : VoiceAction} (hanswers : Answers w s (.request env actor (.utterance data)))
    (hopens : opened env actor data s.db = some (session, db'))
    (hsettles : ∀ control, controlWord w.grammar.tables w.catalogue data.text = some control →
      control ≠ .repeat → ∃ db'', Voice.heard w env actor data s.db = some (session, db'') ∧
        ∀ a, pendingForSession db'' session.id env.now = some a → Settled t a.id)
    (hb : b ∈ s.db.actions.rows) (hp : b.status = .pending) (hopen : b.windowClosed env.now = false)
    (hsession : sessionIdOf s.db b = some session.id) : Settled t b.id := by
  obtain ⟨a, hwaits⟩ := pendingForSession_of_open hb hp (h.timed b hb hp) hopen hsession
  have hsome : waiting env actor data s.db = some a := by
    unfold waiting
    rw [hopens]
    exact hwaits
  obtain ⟨hword, hrepeat⟩ := Or.resolve_left hanswers (by rw [hsome]; nofun)
  obtain ⟨control, hcontrol⟩ := Option.ne_none_iff_exists'.mp hword
  obtain ⟨db'', hheard, hall⟩ := hsettles control hcontrol fun he => hrepeat (he ▸ hcontrol)
  -- After the sweep the action is still open, so the phrase finds one; and there is no other.
  obtain ⟨-, hactions, horder⟩ := heard_some hheard
  have hthere : b ∈ db''.actions.rows := by
    rw [hactions]
    exact mem_expireStale_of_open hb hopen
  obtain ⟨c, hfound⟩ := pendingForSession_of_open hthere hp (h.timed b hb hp) hopen
    (sessionIdOf_append horder hsession)
  obtain ⟨hc, hcp, hclast⟩ := h.heard hheard hfound
  obtain ⟨sessionId, hbsession, hblast⟩ := h.last b hb hp
  rw [hsession] at hbsession
  cases hbsession
  have hturn : c.turnId = b.turnId := Option.some.inj (hclast.last.symm.trans hblast.last)
  have hcb : c = b := h.single c hc b hb hcp hp hturn
  exact hcb ▸ hall c hfound

/-- An utterance reads one action back at most. -/
theorem readBack_once (w : Wiring) (env : Env W) (actor : CurrentUser) (data : UtteranceIn)
    (s : Plant W) {a b : VoiceAction} {p q : Params}
    (ha : Event.readBack a p ∈ (afterUtterance w env actor data s.db).log)
    (hb : Event.readBack b q ∈ (afterUtterance w env actor data s.db).log) : a = b := by
  obtain ⟨-, hspoken⟩ := utterance_speaks w env actor data s
  cases hspoken with
  | nothing log => rw [log] at ha; cases ha
  | ranNow tool r tier known free log => rw [log] at ha; cases List.mem_singleton.mp ha
  | ran c stored clear log settled => rw [log] at ha; cases List.mem_singleton.mp ha
  | readBack c r made log =>
    rw [log] at ha hb
    cases List.mem_singleton.mp ha
    cases List.mem_singleton.mp hb
    rfl

/-- The turn of a pending action is there already. -/
theorem Bound.not_newTurn {s : Plant W} (h : Bound s) {b : VoiceAction} {turn : Uuid}
    (hb : b ∈ s.db.actions.rows) (hp : b.status = .pending) (fresh : s.db.turns.find turn = none) :
    b.turnId ≠ turn := by
  intro hturn
  obtain ⟨sessionId, hsession, -⟩ := h.last b hb hp
  unfold sessionIdOf at hsession
  rw [hturn, fresh] at hsession
  cases hsession

theorem Bound.utterance {s : Plant W} (h : Bound s) {w : Wiring} {env : Env W} {actor : CurrentUser}
    {data : UtteranceIn} (hanswers : Answers w s (.request env actor (.utterance data))) :
    Bound (next w s (.request env actor (.utterance data))) := by
  have htook : Took w env actor data s.db (afterUtterance w env actor data s.db) :=
    handle_took w env actor data s.db
  have honce := fun a b p q => readBack_once w env actor data s (a := a) (b := b) (p := p) (q := q)
  show Bound ⟨(afterUtterance w env actor data s.db).stored,
    s.history ++ (afterUtterance w env actor data s.db).log⟩
  generalize afterUtterance w env actor data s.db = t at htook honce
  cases htook with
  | lost turns actions => exact h.stays (by rw [turns]) (fun a ha _ => actions ▸ ha) rfl
  | taken session db' opens fresh last pending answers left =>
    refine ⟨fun b hb hp => ?_, fun b hb hp => ?_, fun a ha b hb hp hp' hturn => ?_⟩
    · cases pending b hb hp with
      | inl hold =>
        obtain ⟨hrow, hopen⟩ := hold
        obtain ⟨sessionId, hsession, hlast⟩ := h.last b hrow hp
        have hother : session.id ≠ sessionId := by
          intro hsame
          subst hsame
          obtain ⟨c, hfind, hdone⟩ := h.answered hanswers opens answers hrow hp hopen hsession
          have hthere : t.stored.actions.find b.id = some b := Table.find_iff.mpr ⟨hb, rfl⟩
          rw [hthere] at hfind
          cases hfind
          exact hdone hp
        refine ⟨sessionId, sessionIdOf_append last hsession, hlast.stays ?_ rfl⟩
        rw [latestTurn_append last, if_neg hother]
      | inr hnew =>
        obtain ⟨hturn, -, p, hsaid⟩ := hnew
        refine ⟨session.id, ?_, ⟨p, List.mem_append_right _ hsaid⟩, ?_⟩
        · rw [sessionIdOf_eq_some, last, hturn]
          exact List.mem_append_right _ (List.mem_singleton_self _)
        · rw [latestTurn_append last, if_pos rfl, hturn]
    · cases pending b hb hp with
      | inl hold => exact h.timed b hold.1 hp
      | inr hnew => exact hnew.2.1
    · cases pending a ha hp with
      | inl hold =>
        cases pending b hb hp' with
        | inl hold' => exact h.single a hold.1 b hold'.1 hp hp' hturn
        | inr hnew' => exact absurd (hturn.trans hnew'.1) (h.not_newTurn hold.1 hp fresh)
      | inr hnew =>
        cases pending b hb hp' with
        | inl hold' => exact absurd (hturn.symm.trans hnew.1) (h.not_newTurn hold'.1 hp' fresh)
        | inr hnew' =>
          obtain ⟨p, hsaid⟩ := hnew.2.2
          obtain ⟨q, hsaid'⟩ := hnew'.2.2
          exact honce a b p q hsaid hsaid'

/-- A request that names its action takes no turn. -/
theorem Bound.named {s : Plant W} (h : Bound s) {α : Type} {m : VoiceTx W α} {turn : Uuid}
    (hminds : Tx.Along (Minds turn) m) (hkeeps : Keeps ⟨s.db, s.db, []⟩ (m.run ⟨s.db, s.db, []⟩).2) :
    Bound ⟨(m.run ⟨s.db, s.db, []⟩).2.stored, s.history ++ (m.run ⟨s.db, s.db, []⟩).2.log⟩ := by
  have horder := (hminds ⟨s.db, s.db, []⟩).stored
  refine h.stays ?_ (fun a ha hp => ?_) rfl
  · cases horder with
    | inl hsame => rw [hsame]
    | inr hall => exact hall
  · cases hkeeps.stored with
    | inl hsame => rw [hsame] at ha; exact ha
    | inr hmoved =>
      exact Table.mem_of_find (hmoved.pending_before (Table.find_iff.mpr ⟨ha, rfl⟩) hp)

theorem Bound.step {w : Wiring} {s : Plant W} {o : Occurrence W} (h : Bound s)
    (hanswers : Answers w s o) : Bound (next w s o) := by
  cases o with
  | elsewhere sessions registry =>
    have hhistory : s.history = s.history ++ [] := (List.append_nil _).symm
    exact h.stays rfl (fun a ha _ => ha) hhistory
  | request env actor request =>
    cases request with
    | utterance data => exact h.utterance hanswers
    | confirm id pin =>
      refine h.named (Minds.confirm 0 w env actor id pin "en") ?_
      cases hfind : s.db.actions.find id with
      | none =>
        rw [confirm_missing w env actor pin "en" (s := ⟨s.db, s.db, []⟩) hfind]
        exact .refl _
      | some a =>
        cases Table.key_of_find hfind
        exact (confirm_ends w env actor pin "en" (s := ⟨s.db, s.db, []⟩) hfind).1
    | cancel id =>
      refine h.named (Minds.cancel 0 id) ?_
      cases hfind : s.db.actions.find id with
      | none =>
        rw [cancel_missing (s := ⟨s.db, s.db, []⟩) hfind]
        exact .refl _
      | some a =>
        cases Table.key_of_find hfind
        exact (cancel_ends (s := ⟨s.db, s.db, []⟩) hfind).1

theorem Bound.binds {s : Plant W} (h : Bound s) (w : Wiring) (o : Occurrence W) : Binds w s o := by
  cases o with
  | elsewhere sessions registry => trivial
  | request env actor request =>
    cases request with
    | confirm id pin => trivial
    | cancel id => trivial
    | utterance data =>
      intro _ id tool params hmem
      have hends : Handled w env actor data s.db (afterUtterance w env actor data s.db) :=
        handle_ends w env actor data s.db
      generalize afterUtterance w env actor data s.db = t at hmem hends
      cases hends with
      | failed log stored nothing => rw [log] at hmem; cases hmem
      | intent session result db' base plain tier spoke whole doubt =>
        exact absurd ⟨id, tool, params, hmem⟩ (spoke.not_runsAction rfl)
      | control session control db' db'' base word hears work registry obeyed =>
        rw [obeyed.log, List.nil_append] at hmem
        split at hmem
        · obtain ⟨a, ha, heq⟩ := List.mem_map.mp hmem
          have hfound := (Option.filter_eq_some_iff.mp (Option.mem_toList.mp ha)).1
          obtain ⟨⟨db₁, hopens⟩, -⟩ := heard_some hears
          obtain ⟨-, -, hlast⟩ := h.heard hears hfound
          cases heq
          exact ⟨session, db₁, a, hopens, rfl, hlast⟩
        · cases hmem

theorem Bound.leaves {s : Plant W} (h : Bound s) (sessionId : Uuid) (now : Instant) (a : VoiceAction)
    (hp : pendingForSession s.db sessionId now = some a) : ReadBackLast s sessionId a := by
  obtain ⟨hfind, hpending, hsession⟩ := pendingForSession_some hp
  obtain ⟨sessionId', hsession', hlast⟩ := h.last a (Table.mem_of_find hfind) hpending
  rw [hsession] at hsession'
  cases hsession'
  exact hlast

/-- In every run whose utterances answer the read-back that waits for them, a confirm phrase binds
to the last read-back. -/
theorem confirm_binds_to_last {w : Wiring} {s₀ s : Plant W} {es : List (Occurrence W)}
    (hstart : Start s₀) (hrun : Run (Guarded (Next w) (Answers w)) s₀ es s) : BindsToLast w s := by
  have hnone : ∀ a, a ∉ s₀.db.actions.rows := by
    intro a ha
    rw [hstart.actions] at ha
    cases ha
  have hinit : Bound s₀ :=
    ⟨fun a ha => absurd ha (hnone a), fun a ha => absurd ha (hnone a), fun a ha => absurd ha (hnone a)⟩
  have hbound : Bound s := by
    refine hrun.guarded hinit ?_
    intro t o u ht hanswers hnext
    exact hnext ▸ ht.step hanswers
  exact ⟨hbound.binds w, hbound.leaves⟩

/-- The condition is exact: an utterance that does not answer the read-back waiting for it, and is
not lost as a whole, leaves it pending behind a turn of its own. -/
theorem Bound.unanswered_left {s : Plant W} (h : Bound s) {w : Wiring} {env : Env W}
    {actor : CurrentUser} {data : UtteranceIn}
    (hunanswered : ¬Answers w s (.request env actor (.utterance data)))
    (hkept : order (next w s (.request env actor (.utterance data))).db.turns ≠ order s.db.turns) :
    let db := (next w s (.request env actor (.utterance data))).db
    ∃ a ∈ db.actions.rows, a.status = .pending ∧ ∃ sessionId, sessionIdOf db a = some sessionId ∧
      latestTurn db sessionId ≠ some a.turnId := by
  intro db
  have htook : Took w env actor data s.db (afterUtterance w env actor data s.db) :=
    handle_took w env actor data s.db
  obtain ⟨hwaits, hword⟩ := not_or.mp hunanswered
  obtain ⟨a, ha⟩ := Option.ne_none_iff_exists'.mp hwaits
  obtain ⟨⟨session, db'⟩, hopened, hpending⟩ := Option.bind_eq_some_iff.mp ha
  obtain ⟨hfind, hp, hsession⟩ := pendingForSession_some hpending
  have hrow : a ∈ s.db.actions.rows := Table.mem_of_find hfind
  cases htook with
  | lost turns actions => exact absurd (congrArg order turns) hkept
  | taken session' db'' opens fresh last pending answers left =>
    rw [opens] at hopened
    cases hopened
    refine ⟨a, left a hrow hp (open_of_pendingForSession hpending) ?_, hp, session.id, ?_, ?_⟩
    · intro control hcontrol
      by_contra hother
      refine hword ⟨by rw [hcontrol]; nofun, fun hrepeat => hother ?_⟩
      exact Option.some.inj (hcontrol.symm.trans hrepeat)
    · exact sessionIdOf_append last hsession
    · have hlatest := latestTurn_append last session.id
      rw [if_pos rfl] at hlatest
      intro hsame
      have hturn : a.turnId = env.newTurn := Option.some.inj (hsame.symm.trans hlatest)
      exact h.not_newTurn hrow hp fresh hturn

/-! A report is read back, and the operator confirms it; or asks something else first. -/

theorem confirm_binds_to_report :
    let asked := reportAsked obligingTool
    RunsAction (serve reportWiring (reportEnv 2 2 obligingTool) operator
        (.utterance (say "confirm" none)) asked.db).log ∧ BindsToLast reportWiring asked := by
  intro asked
  obtain ⟨hanswers, hruns⟩ :
      Answers reportWiring quietPlant
        (asks 0 1 obligingTool "generate the machine health report") ∧
      reachesConfirm reportWiring (say "confirm" none) ∧
        (held reportWiring (reportEnv 2 2 obligingTool) operator (say "confirm" none)
          asked.db).isSome := by decide +kernel
  have hrun : Run (Guarded (Next reportWiring) (Answers reportWiring)) quietPlant _ asked :=
    Run.nil.snoc ⟨hanswers, rfl⟩
  exact ⟨(runsAction_iff _ _ _ _ _).mpr hruns, confirm_binds_to_last ⟨rfl, rfl⟩ hrun⟩

def Event.readBackTurn : Event → Option Uuid
  | .readBack a _ => some a.turnId
  | .toolRun _ _ _ => none

/-- The question in between gets its answer, and "confirm" still runs the report. -/
theorem confirm_skips_a_question :
    ¬∀ es s, Run (Next reportWiring) quietPlant es s → BindsToLast reportWiring s := by
  intro h
  let asked := next reportWiring (reportAsked obligingTool) (asks 2 2 obligingTool "how is press four")
  have hrun : Run (Next reportWiring) quietPlant _ asked := (Run.nil.snoc rfl).snoc rfl
  -- The confirmation runs the action of turn 1; the question was turn 2 of the same session.
  obtain ⟨hconfirm, hruns, hone, hread, htwo⟩ :
      isConfirm reportWiring.grammar.tables reportWiring.catalogue "confirm" ∧
      Event.toolRun (some 101) "generate_report" [("type", .text "machine_health")] ∈
        (afterUtterance reportWiring (reportEnv 4 3 obligingTool) operator (say "confirm" none)
          asked.db).log ∧
      (opened (reportEnv 4 3 obligingTool) operator (say "confirm" none) asked.db).map
        (fun o => o.1.id) = some 1 ∧
      (∀ turn ∈ asked.history.filterMap Event.readBackTurn, turn = 1) ∧
      latestTurn asked.db 1 = some 2 := by decide +kernel
  obtain ⟨session, db', a, hopens, -, ⟨p, hsaid⟩, hlast⟩ :=
    (h _ _ hrun).runs (asks 4 3 obligingTool "confirm") hconfirm _ _ _ hruns
  rw [hopens] at hone
  have hsession : session.id = 1 := Option.some.inj hone
  have hturn : a.turnId = 1 := hread _ (List.mem_filterMap.mpr ⟨_, hsaid, rfl⟩)
  rw [hsession, hturn, htwo] at hlast
  cases hlast

end TwinVoice.Voice
